import Depot.Site.Jobs

/-!
# Warnings

Ready jobs whose time is nearly over are warned of, once as long as they stay so. How near that is is
said in whole milliseconds.
-/

namespace Depot.Warnings

open Act Time

/-- Jobs are warned of by their expiry, and those of the same time by their names. -/
def expiryOrder : Job → Job → Ordering :=
  compareLex (compareOn Job.expiresAt) (compareOn Job.requestId)

/-- The ready jobs that expire within a span from now, the soonest first. -/
def nearExpiry (windowMs : Int) : Act (List Job) := do
  let time ← now
  let jobs ← Records.findExpiring time (time.addMillis windowMs)
  return sortBy expiryOrder (jobs.filter fun j => j.status = .ready)

/-- Warn of the jobs of a list that have not been warned of; how many there were. -/
def warnAll : List Job → Act Nat
  | [] => return 0
  | job :: rest => do
    match job.expiresAt with
    | none => warnAll rest
    | some expiry =>
      if (← get).warned.contains job.requestId then warnAll rest
      else
        modify fun s => { s with warned := s.warned.add job.requestId }
        tell (.expiringSoon job.requestId expiry)
        return (← warnAll rest) + 1

/-- Forget the warnings of jobs that are not in a list. -/
def forgetOthers (jobs : List Job) : Act Unit :=
  modify fun s =>
    { s with
      warned := ⟨s.warned.entries.filter fun e => jobs.any fun j => j.requestId = e.1,
        s.warned.sorted.filter _⟩ }

/-- Warn of the jobs that expire within so many milliseconds from now; how many warnings there were. -/
def notify (windowMs : Int) : Act Nat := do
  let jobs ← nearExpiry windowMs
  forgetOthers jobs
  warnAll jobs

end Depot.Warnings
