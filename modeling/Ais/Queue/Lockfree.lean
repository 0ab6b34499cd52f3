import Ais.Queue.Ring

/-!
# Queue — one putter, one taker, no lock

One thread that puts and one that takes may share a ring without a lock.  Here a put and a take fall
apart into their loads and stores, each a step of its thread; `Duplex` is the ring with both threads
at it, a `Move` is one step of one of them, and a list of moves is an interleaving.  A put looks at
the closed flag, then at `back`, then at `front`, and if there is room writes its slot and publishes
it by storing `back`.  A take looks at `front`, the flag and `back`, reads its slot and publishes
that by storing `front`.  A thread that lets go of the ring closes it, and does nothing more.
-/

namespace Ais

/-- Where a put stands: what comes next. -/
inductive Putting (α : Type) where
  /-- Nothing; the answer of the last put. -/
  | idle (answer : Option (Except (Refusal α) Unit))
  /-- Nothing ever again. -/
  | gone
  | loadClosed (value : α)
  | loadBack (value : α)
  | loadFront (value : α) (back : UInt64)
  | write (value : α) (back : UInt64)
  | publish (value : α) (back : UInt64)

/-- Where a take stands: what comes next. -/
inductive Taking (α : Type) where
  /-- Nothing; the answer of the last take. -/
  | idle (answer : Option (Except Dry α))
  /-- Nothing ever again. -/
  | gone
  | loadFront
  | loadClosed (front : UInt64)
  | loadBack (front : UInt64) (closed : Bool)
  | read (front : UInt64)
  | publish (front : UInt64) (value : Option α)

/-- A ring with two threads at it. -/
structure Duplex (α : Type) where
  ring    : Ring α
  putting : Putting α
  taking  : Taking α
  /-- The values put, the newest first. -/
  put     : List α
  /-- The values taken, the newest first. -/
  taken   : List α

/-- One step of one thread.  A thread begins something new only when it is idle. -/
inductive Move (α : Type) where
  /-- The putter begins to put a value. -/
  | beginPut (value : α)
  /-- The putter's next load or store. -/
  | putter
  /-- The putter closes the ring. -/
  | close
  /-- The putter lets go of the ring. -/
  | leavePut
  /-- The taker begins to take. -/
  | beginTake
  /-- The taker's next load or store. -/
  | taker
  /-- The taker lets go of the ring. -/
  | leaveTake

namespace Duplex

variable {α : Type}

/-- Two idle threads at a ring. -/
def start (r : Ring α) : Duplex α := ⟨r, .idle none, .idle none, [], []⟩

/-- The putter's next load or store. -/
def stepPut (d : Duplex α) : Duplex α :=
  match d.putting with
  | .idle _           => d
  | .gone             => d
  | .loadClosed v     =>
    { d with putting :=
        if d.ring.closed then .idle (some (.error (.closed v))) else .loadBack v }
  | .loadBack v       => { d with putting := .loadFront v d.ring.back }
  | .loadFront v back =>
    { d with putting :=
        if d.ring.capacity ≤ Ring.distance d.ring.front back
        then .idle (some (.error (.full v))) else .write v back }
  | .write v back     =>
    { d with ring := d.ring.setSlot back (some v), putting := .publish v back }
  | .publish v back   =>
    { d with
        ring    := { d.ring with back := back + 1 }
        putting := .idle (some (.ok ()))
        put     := v :: d.put }

/-- The taker's next load or store. -/
def stepTake (d : Duplex α) : Duplex α :=
  match d.taking with
  | .idle _                => d
  | .gone                  => d
  | .loadFront             => { d with taking := .loadClosed d.ring.front }
  | .loadClosed front      => { d with taking := .loadBack front d.ring.closed }
  | .loadBack front closed =>
    { d with taking :=
        if front = d.ring.back then .idle (some (.error (if closed then .closed else .empty)))
        else .read front }
  | .read front            =>
    { d with
        ring   := d.ring.setSlot front none
        taking := .publish front (d.ring.slot? front) }
  | .publish front value   =>
    let ring := { d.ring with front := front + 1 }
    match value with
    | some v => { d with ring, taking := .idle (some (.ok v)), taken := v :: d.taken }
    | none   => { d with ring, taking := .idle none }

/-- One step. -/
def move (d : Duplex α) : Move α → Duplex α
  | .beginPut v =>
    match d.putting with
    | .idle _ => { d with putting := .loadClosed v }
    | _       => d
  | .putter     => d.stepPut
  | .close      =>
    match d.putting with
    | .idle _ => { d with ring := d.ring.close }
    | _       => d
  | .leavePut   =>
    match d.putting with
    | .idle _ => { d with ring := d.ring.close, putting := .gone }
    | _       => d
  | .beginTake  =>
    match d.taking with
    | .idle _ => { d with taking := .loadFront }
    | _       => d
  | .taker      => d.stepTake
  | .leaveTake  =>
    match d.taking with
    | .idle _ => { d with ring := d.ring.close, taking := .gone }
    | _       => d

/-- An interleaving. -/
def run (d : Duplex α) (moves : List (Move α)) : Duplex α := moves.foldl move d

/-- What the putter does who wants to put every value of a list and then close: it tries the first
again while the ring is full, and gives up when the ring is closed. -/
def nextPut (d : Duplex α) (values : List α) : Move α × List α :=
  match d.putting with
  | .idle answer =>
    let left := match answer with
      | some (.ok ())             => values.tail
      | some (.error (.closed _)) => []
      | _                         => values
    match left with
    | []     => (.close, [])
    | v :: _ => (.beginPut v, left)
  | _            => (.putter, values)

/-- What the taker does who takes until the ring is closed. -/
def nextTake (d : Duplex α) : Option (Move α) :=
  match d.taking with
  | .idle (some (.error .closed)) => none
  | .idle _                       => some .beginTake
  | _                             => some .taker

/-- Both threads step in turn until the taker is done, for at most `fuel` rounds. -/
def alternate (d : Duplex α) (values : List α) : (fuel : Nat) → Duplex α
  | 0        => d
  | fuel + 1 =>
    match d.nextTake with
    | none    => d
    | some mv =>
      let (put, left) := d.nextPut values
      (d.run [put, mv]).alternate left fuel

end Duplex

/-- One thread puts the values and closes the ring, while the other takes until the ring is closed:
what it took, its last answer, and the ring afterwards.  No value needs more than two failed tries
of each side, and a try has at most six steps. -/
def Ring.stream {α : Type} (r : Ring α) (values : List α) :
    Ring α × List α × Option (Except Dry α) :=
  let d := (Duplex.start r).alternate values (32 * (values.length + r.size + 2))
  let answer := match d.taking with
    | .idle answer => answer
    | _            => none
  (d.ring, d.taken.reverse, answer)

end Ais
