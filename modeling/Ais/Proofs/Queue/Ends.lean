import Ais.Stage

/-!
# Queue — a sink that keeps what it takes

`Sink.Keeps` says of a kind of queue that as long as it is open and not full it takes what it is
given, and puts it behind what it holds.
-/

namespace Ais

variable {Q : Type} {α : Type}

/-- Whatever is open takes what there is room for: `held` grows by it at the end. -/
structure Sink.Keeps [Sink Q α] (isOpen : Q → Prop) (held : Q → List α) : Prop where
  isClosed : ∀ {q}, isOpen q → Sink.isClosed q = false
  send     : ∀ {q}, isOpen q → Sink.isFull q = false → ∀ v,
    ∃ q', Sink.send q v = (q', .ok ()) ∧ isOpen q' ∧ held q' = held q ++ [v]

/-- What is open gives what it holds, the oldest first. -/
structure Source.Gives [Source Q α] (isOpen : Q → Prop) (held : Q → List α) : Prop where
  receive     : ∀ {q a as}, isOpen q → held q = a :: as →
    ∃ q', Source.receive q = (q', .ok a) ∧ isOpen q' ∧ held q' = as
  receive_nil : ∀ {q}, isOpen q → held q = [] → ∃ dry, Source.receive q = (q, .error dry)

/-- A queue without bounds: it takes everything, and gives nothing back. -/
structure Ledger (α : Type) where
  entries : List α

instance : Sink (Ledger α) α :=
  ⟨fun _ => false, fun _ => false, fun q v => (⟨q.entries ++ [v]⟩, .ok ())⟩

theorem Ledger.keeps : Sink.Keeps (fun _ : Ledger α => True) Ledger.entries :=
  ⟨fun _ => rfl, fun _ _ _ => ⟨_, rfl, trivial, rfl⟩⟩

namespace Stage

variable {n : Nat} {isOpen : Q → Prop} {held : Q → List (Buffer α n)}

theorem ensureOpen_of_open [Sink Q α] {q : Q} (h : Sink.isClosed q = false) : ensureOpen q = .ok () := by
  rw [ensureOpen, h]
  rfl

theorem ensureOpen_of_closed [Sink Q α] {q : Q} (h : Sink.isClosed q = true) :
    ensureOpen q = .error (.fault .queueClosed) := by
  rw [ensureOpen, h]
  rfl

theorem ensureOpen_ok [Sink Q α] {isOpen : Q → Prop} {held : Q → List α}
    (keeps : Sink.Keeps isOpen held) {q : Q} (h : isOpen q) : ensureOpen q = .ok () :=
  ensureOpen_of_open (keeps.isClosed h)

theorem handOver_ok [Sink Q (Buffer α n)] (keeps : Sink.Keeps isOpen held) {q : Q} (h : isOpen q)
    (room : Sink.isFull q = false) (pool : Pool α n) (b : Buffer α n) :
    ∃ q', handOver q pool b = (q', pool, .ok ()) ∧ isOpen q' ∧ held q' = held q ++ [b] := by
  obtain ⟨q', hsend, hq', hheld⟩ := keeps.send h room b
  exact ⟨q', by rw [handOver, hsend], hq', hheld⟩

end Stage

end Ais
