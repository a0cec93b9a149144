import UsingStyle.Text.Decimal

/-! # Pools of workers

A pool shares jobs among workers. At its turn a free worker picks up the next waiting job, and a
busy worker finishes the job that it has. The turns may come in any order; the results are handed
out in the order of the jobs.
-/

namespace UsingStyle

/-- A count of workers, at least one. -/
structure Workers where
  count : Nat
  pos : 0 < count

namespace Workers

/-- A count of workers that leaves nobody to work. -/
structure Invalid where
  count : Int
  deriving DecidableEq, Repr

/-- The text of the error. -/
def Invalid.message (e : Invalid) : String :=
  "Expected at least one worker, got: " ++ Text.integer e.count

/-- The workers of a positive count. -/
def ofInt (n : Int) : Except Invalid Workers :=
  if h : 0 < n then .ok ⟨n.toNat, by omega⟩ else .error ⟨n⟩

end Workers

/-- A pool at work. Jobs and results carry the number of the job. -/
structure Pool (α β : Type) where
  /-- The jobs that nobody has picked up, the next one first. -/
  waiting : List (α × Nat)
  /-- What each worker has in hand. -/
  hands : List (Option (α × Nat))
  /-- The results so far, in the order in which they were finished. -/
  finished : List (β × Nat)

namespace Pool

variable {α β : Type}

/-- The pool before the first turn: all jobs wait, and all workers are free. No more workers come
than there are jobs. -/
def start (workers : Workers) (jobs : List α) : Pool α β :=
  ⟨jobs.zipIdx, List.replicate (min workers.count jobs.length) none, []⟩

/-- The pool after a turn of the given worker. There is nothing to do for a worker that the pool
does not have, nor for a free one when no job waits. -/
def turn (work : α → β) (p : Pool α β) (worker : Nat) : Pool α β :=
  match p.hands[worker]?, p.waiting with
  | some (some (job, number)), _ =>
    { p with
      hands := p.hands.set worker none
      finished := p.finished ++ [(work job, number)] }
  | some none, job :: waiting => { p with waiting, hands := p.hands.set worker (some job) }
  | some none, [] | none, _ => p

/-- All results, once every job that is left has been finished: those in hand, then those that
wait. -/
def complete (work : α → β) (p : Pool α β) : List (β × Nat) :=
  p.finished ++ (p.hands.filterMap id ++ p.waiting).map fun job => (work job.1, job.2)

/-- The results of the jobs, in the order of the jobs, when the workers act in the order of
`turns`. -/
def results (workers : Workers) (turns : List Nat) (work : α → β) (jobs : List α) : List β :=
  let finished := (turns.foldl (turn work) (start workers jobs)).complete work
  (List.range jobs.length).filterMap fun number =>
    (finished.find? fun result => result.2 == number).map Prod.fst

end Pool
end UsingStyle
