import Ais.Queue.Ring

/-!
# Queue — any number of threads, one lock

A ring under a lock may be shared by any number of threads, and a thread may wait: to put until
there is room, to take until there is something or its time is up.  What a thread does while it
holds the lock is one step; a thread that has to wait lets the lock go and looks again in a later
step.  `Crew` is the ring with its threads, and a list of turns is an interleaving.
-/

namespace Ais

namespace Ring

variable {α : Type}

/-- Puts a value, or says that the ring is closed; `none` where the thread has to wait. -/
def pushNow? (r : Ring α) (v : α) : Option (Ring α × Except (Refusal α) Unit) :=
  if r.isFull && !r.closed then none
  else if r.closed then some (r, .error (.closed v))
  else some (r.put v, .ok ())

/-- Takes the oldest value, or says that the ring is closed or that the time is up; `none` where the
thread has to wait. -/
def popNow? (r : Ring α) (expired : Bool) : Option (Ring α × Except Dry α) :=
  match r.take with
  | (some v, taken) => some (taken, .ok v)
  | (none, left)    =>
    if r.closed then some (left, .error .closed)
    else if expired then some (left, .error .timeout)
    else none

end Ring

/-- What a thread is to do. -/
inductive Errand (α : Type) where
  /-- Put a value, and wait for room. -/
  | push (value : α)
  /-- Put a value, if there is room now. -/
  | tryPush (value : α)
  /-- Take a value, and wait for one. -/
  | pop
  /-- Take a value, if there is one now. -/
  | tryPop
  /-- Take values until the ring is closed. -/
  | drain
  | close
deriving DecidableEq

/-- A thread: what it has to do, and the answers it got, the newest first. -/
structure Thread (α : Type) where
  errands : List (Errand α)
  pushes  : List (Except (Refusal α) Unit)
  pops    : List (Except Dry α)

namespace Thread

variable {α : Type}

/-- A thread that has not begun. -/
def ofErrands (errands : List (Errand α)) : Thread α := ⟨errands, [], []⟩

/-- The values taken, in order. -/
def values (t : Thread α) : List α := t.pops.reverse.filterMap (·.toOption)

/-- One step under the lock; `none` where the thread is done or has to wait.  `expired` says that
its time is up. -/
def step? (t : Thread α) (r : Ring α) (expired : Bool) : Option (Thread α × Ring α) :=
  match t.errands with
  | []                 => none
  | .push v :: rest    =>
    (r.pushNow? v).map fun (r, answer) => (⟨rest, answer :: t.pushes, t.pops⟩, r)
  | .tryPush v :: rest =>
    let (r, answer) := r.push v
    some (⟨rest, answer :: t.pushes, t.pops⟩, r)
  | .pop :: rest       =>
    (r.popNow? expired).map fun (r, answer) => (⟨rest, t.pushes, answer :: t.pops⟩, r)
  | .tryPop :: rest    =>
    let (r, answer) := r.pop
    some (⟨rest, t.pushes, answer :: t.pops⟩, r)
  | .drain :: rest     =>
    (r.popNow? expired).map fun (r, answer) =>
      let left := match answer with
        | .error .closed => rest
        | _              => t.errands
      (⟨left, t.pushes, answer :: t.pops⟩, r)
  | .close :: rest     => some (⟨rest, t.pushes, t.pops⟩, r.close)

end Thread

/-- One turn of one thread. -/
structure Turn where
  thread  : Nat
  expired : Bool

/-- A ring and the threads that share it. -/
structure Crew (α : Type) where
  ring    : Ring α
  threads : List (Thread α)

namespace Crew

variable {α : Type}

/-- The crew after a thread's turn; `none` where that thread cannot go on. -/
def turn? (c : Crew α) (t : Turn) : Option (Crew α) := do
  let thread ← c.threads[t.thread]?
  let (thread, ring) ← thread.step? c.ring t.expired
  some ⟨ring, c.threads.set t.thread thread⟩

/-- An interleaving.  The turn of a thread that cannot go on is idle. -/
def run (c : Crew α) (turns : List Turn) : Crew α :=
  turns.foldl (fun c t => (c.turn? t).getD c) c

/-- The turn of the first thread that can go on while there is time. -/
def first? (c : Crew α) : Option (Crew α) :=
  (List.range c.threads.length).findSome? fun i => c.turn? ⟨i, false⟩

/-- How many steps the crew has left at most: a value still to be put will be taken as well. -/
def work (c : Crew α) : Nat :=
  c.ring.size + 2 * c.threads.foldr (·.errands.length + ·) 0

/-- The first thread that can go on does, for at most `fuel` steps. -/
def settleFor (c : Crew α) : (fuel : Nat) → Crew α
  | 0        => c
  | fuel + 1 =>
    match c.first? with
    | none   => c
    | some c => c.settleFor fuel

/-- The crew runs until each thread is done or waits for ever. -/
def settle (c : Crew α) : Crew α := c.settleFor c.work

end Crew

end Ais
