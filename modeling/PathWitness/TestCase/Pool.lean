/-!
# Worker Pools

Jobs that are done by several workers at the same time. Jobs are numbered and
sent in order into a queue of limited length. A worker that has nothing to do
takes the first job of the queue, and leaves its result under the number of
the job. The work can be called off as long as not all jobs are sent.

In what order the workers move is up to a schedule. A schedule is any list of
moves; a move that is not possible when its turn comes is left out, and when
the schedule ends the remaining moves are made in a fixed order.

## Main definitions

* `Pool`: Jobs, queue, workers and results.
* `Pool.Move`: What can happen next.
* `Pool.step`: What a move does.
* `Pool.run`: Works off a schedule and then the rest.
-/

namespace PathWitness

/-- Jobs that several workers do at the same time. -/
structure Pool (ρ : Type) where
  /-- How many jobs the queue can hold. -/
  capacity : Nat
  /-- The jobs that are not sent yet. -/
  unsent : List Nat
  /-- The jobs that no worker has taken yet. -/
  queue : List Nat := []
  /-- The job of every worker that has one. -/
  workers : List (Option Nat)
  /-- The results by job. -/
  results : List (Option ρ)
  /-- The work was called off. -/
  canceled : Bool := false

namespace Pool

/-- What can happen next. -/
inductive Move where
  /-- The next job is sent. -/
  | send
  /-- A worker takes a job. -/
  | take (worker : Nat)
  /-- A worker leaves the result of its job. -/
  | finish (worker : Nat)
  /-- The work is called off. -/
  | cancel
  deriving Repr, DecidableEq

variable {ρ : Type}

/-- A pool before any move, with so many workers and jobs. The queue holds two
    jobs for every worker. -/
def start (workers jobs : Nat) : Pool ρ where
  capacity := workers * 2
  unsent := List.range jobs
  workers := List.replicate workers none
  results := List.replicate jobs none

/-- What a move does, where `job` gives the results. There is no answer if the
    move is not possible. -/
def step (job : Nat → ρ) (p : Pool ρ) : Move → Option (Pool ρ)
  | .send =>
    match p.unsent with
    | i :: rest =>
      if p.queue.length < p.capacity then some { p with unsent := rest, queue := p.queue ++ [i] }
      else none
    | [] => none
  | .take w =>
    match p.queue, p.workers[w]? with
    | i :: rest, some none => some { p with queue := rest, workers := p.workers.set w (some i) }
    | _, _ => none
  | .finish w =>
    match p.workers[w]? with
    | some (some i) =>
      some { p with workers := p.workers.set w none, results := p.results.set i (some (job i)) }
    | _ => none
  | .cancel =>
    match p.unsent with
    | _ :: _ => some { p with unsent := [], canceled := true }
    | [] => none

/-- The moves that are made when no schedule says otherwise, the most urgent
    first. -/
def ownMoves (p : Pool ρ) : List Move :=
  let workers := List.range p.workers.length
  workers.map .finish ++ workers.map .take ++ [.send]

/-- Makes the most urgent moves, at most so many. -/
def drain (job : Nat → ρ) : Nat → Pool ρ → Pool ρ
  | 0, p => p
  | n + 1, p =>
    match p.ownMoves.findSome? (p.step job) with
    | some p => drain job n p
    | none => p

/-- Makes the moves of a schedule, leaving out those that are not possible. -/
def follow (job : Nat → ρ) (schedule : List Move) (p : Pool ρ) : Pool ρ :=
  schedule.foldl (fun p m => (p.step job m).getD p) p

/-- Works off a schedule and then the rest. Every job is sent, taken and
    finished, so three moves for each of them are enough. -/
def run (job : Nat → ρ) (schedule : List Move) (workers jobs : Nat) : Pool ρ :=
  ((start workers jobs).follow job schedule).drain job (3 * jobs)

end Pool

end PathWitness
