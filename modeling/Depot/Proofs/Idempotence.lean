import Depot.Proofs.Provision
import Depot.Proofs.Run

/-!
# A second sweep

A sweep asks for the files of all jobs that wait, each time anew. To ask for a file that is provided does
nothing at all: the request refers to it already, and it is in flight, or found to be there. So a sweep over
jobs that wait, none of which has waited for too long, only counts them; and that is where another sweep has
left them.

## Main statements

* `Jobs.leads_poll_of_settled` — where nothing is left to do a sweep does nothing.
* `sweep_is_idempotent` — a second sweep does nothing.
-/

namespace Depot

open Act Time

variable {s : Site} {E : Failure → Site → Prop}

namespace Transfers

theorem needOf_of_isThere {f : FileRecord} (h : f.IsThere) (entry : ManifestEntry) (kb : UInt64) :
    needOf entry kb (some f) = .settled .available := by
  simp [needOf, h.available, h.sized, h.sound]

/-- To ask for a file that is provided does nothing. -/
theorem leads_ensure_of_provided (h : s.Quiet) {r : RequestId} {entry : ManifestEntry}
    (provided : s.Provides r entry.fileId) (retrievable : entry.kind.isCatalogue = false)
    {Q : FileStatus → Site → Prop} :
    Leads (ensure r entry) E Q s ↔
      Q (if s.inFlight.contains entry.fileId then .pending else .available) s := by
  simp only [ensure, retrievable, Bool.false_eq_true, if_false, leads_bind]
  rw [Records.leads_addReference_of_quiet h, Inventory.addReference_of_refers provided.refers]
  simp only [leads_get]
  cases hflying : s.inFlight.contains entry.fileId with
  | true => rw [if_pos rfl, if_pos rfl, leads_pure]
  | false =>
    obtain ⟨f, hf, hthere⟩ := provided.coming.resolve_left (by rw [hflying]; decide)
    rw [if_neg Bool.false_ne_true, if_neg Bool.false_ne_true, leads_bind,
      Records.leads_loadFile_of_quiet h]
    simp only [leads_bind, leads_get, hf, needOf_of_isThere hthere, leads_pure]

end Transfers

namespace Jobs

/-- To ask for files that are provided does nothing. A job waits for those in flight. -/
theorem leads_assessEntries_of_provided (h : s.Quiet) {r : RequestId} {Q : Assessment → Site → Prop} :
    ∀ (l : List ManifestEntry) (waiting : Bool), (∀ e ∈ l, s.Provides r e.fileId) →
      (∀ e ∈ l, e.kind.isCatalogue = false) →
        (Leads (assessEntries r true l waiting) E Q s ↔
          Q (if waiting || l.any (fun e => s.inFlight.contains e.fileId) then .waiting else .ready) s)
  | [], waiting, _, _ => by
    rw [assessEntries, leads_pure, List.any_nil, Bool.or_false]
  | e :: rest, waiting, provided, hl => by
    have hrest := fun waiting => leads_assessEntries_of_provided (Q := Q) h rest waiting
      (fun e' he' => provided e' (.tail _ he')) fun e' he' => hl e' (.tail _ he')
    simp only [assessEntries, if_true, leads_bind, leads_attempt]
    rw [Records.leads_loadFile_of_quiet h,
      Transfers.leads_ensure_of_provided h (provided e (.head _)) (hl e (.head _)), List.any_cons]
    cases s.inFlight.contains e.fileId with
    | true =>
      rw [if_pos rfl]
      exact (hrest true).trans (by simp)
    | false =>
      rw [if_neg Bool.false_ne_true]
      exact hrest waiting

/-- A job that waits is only counted. -/
theorem leads_advance_of_awaits (h : s.Quiet) {job : Job} (awaits : s.Awaits job) (p : Report)
    {Q : Report → Site → Prop} :
    Leads (advance job p) E Q s ↔ Q { p with stillPreparing := p.stillPreparing + 1 } s := by
  have hwaits : (false || job.retrievable.any fun e => s.inFlight.contains e.fileId) = true :=
    List.any_eq_true.2 awaits.flying
  rw [advance, leads_bind, assess, leads_assessEntries_of_provided h _ _ awaits.provided
    (not_catalogue_of_retrievable job), hwaits, if_pos rfl]
  simp only [leads_bind, leads_get, leads_now]
  rw [awaits.fresh, if_neg Bool.false_ne_true, leads_pure]

theorem leads_advanceAll_of_awaits (h : s.Quiet) {Q : Report → Site → Prop} :
    ∀ (l : List Job) (p : Report), (∀ job ∈ l, s.Awaits job) →
      (Leads (advanceAll l p) E Q s ↔ Q { p with stillPreparing := p.stillPreparing + l.length } s)
  | [], p, _ => by
    rw [advanceAll, leads_pure]
    rfl
  | job :: rest, p, awaits => by
    have hrest := fun p => leads_advanceAll_of_awaits (Q := Q) h rest p fun job' hjob' =>
      awaits job' (.tail _ hjob')
    rw [advanceAll, leads_bind, leads_attempt, leads_advance_of_awaits h (awaits job (.head _)), hrest,
      List.length_cons, Nat.add_assoc, Nat.add_comm 1]

theorem leads_expireAll_of_lasting {time : Instant} {Q : Report → Site → Prop} :
    ∀ (l : List Job) (p : Report), (∀ job ∈ l, job.isExpiredAt time = false) →
      (Leads (expireAll time l p) E Q s ↔ Q p s)
  | [], p, _ => by rw [expireAll, leads_pure]
  | job :: rest, p, lasting => by
    rw [expireAll, lasting job (.head _), Bool.not_false, if_pos rfl]
    exact leads_expireAll_of_lasting rest p fun job' hjob' => lasting job' (.tail _ hjob')

/-- **Where nothing is left to do a sweep does nothing**, and counts the jobs that wait. -/
theorem leads_poll_of_settled (h : s.Quiet) (settled : s.Settled) {Q : Report → Site → Prop} :
    Leads poll E Q s ↔ Q { stillPreparing := (s.inventory.jobsWithStatus .preparing).length } s := by
  simp only [poll, leads_bind, leads_now]
  rw [Records.leads_findByStatus_of_quiet h, leads_advanceAll_of_awaits h _ _ settled.waiting,
    Records.leads_findByStatus_of_quiet h, leads_expireAll_of_lasting _ _ settled.lasting, Nat.zero_add]

end Jobs

/-- **A second sweep does nothing.** Whatever is in flight and however jobs, files and references stand: where
no call is refused a sweep gives an answer, and another after it reports no job but those that it lets wait,
which are as many as before, and leaves the depot as it is. -/
theorem sweep_is_idempotent (h : s.Secluded) (faultless : s.Faultless) (hn : s.inventory.Named) :
    ∃ p, Jobs.poll.answer s = .ok p ∧
      Jobs.poll.answer (Jobs.poll.after s) = .ok { stillPreparing := p.stillPreparing } ∧
      Jobs.poll.after (Jobs.poll.after s) = Jobs.poll.after s := by
  obtain ⟨p, hp, hquiet, hsettled, hcount⟩ := (Jobs.leads_poll_settles ⟨h, faultless⟩ hn).exists_ok
  have hagain : Leads Jobs.poll (fun _ _ => False)
      (fun p' s' => p' = { stillPreparing := p.stillPreparing } ∧ s' = Jobs.poll.after s)
      (Jobs.poll.after s) :=
    (Jobs.leads_poll_of_settled hquiet hsettled).2 ⟨by rw [hcount], rfl⟩
  obtain ⟨_, hp', rfl, hsame⟩ := hagain.exists_ok
  exact ⟨p, hp, hp', hsame⟩

/-- A depot with room for one of two files of 60 KB, an hour into 1970: one is there and may be evicted, a job
waits for the other, and the time of another job is over. -/
def unsweptSite : Site :=
  { Site.blank { cacheRoot := "cache", limitKb := 100 } with
    clock := { hand := 3600000 }
    account := { committed := 60 }
    inventory :=
      ((Inventory.fresh.saveFile
        { FileRecord.ofEntry ⟨⟨"f"⟩, .spectrum, none, some 60⟩ 0 with
          sizeKb := some 60, available := true, unlockAt := some .epoch }).saveJob
        (.create ⟨"j"⟩ .web [⟨⟨"g"⟩, .spectrum, none, some 60⟩] .epoch)).saveJob
        { Job.create ⟨"k"⟩ .web [] .epoch with status := .ready, expiresAt := some .epoch } }

/-- The first sweep evicts a file, queues a transfer and lets a job expire; the second does nothing. -/
theorem second_sweep_of_unsweptSite :
    (Jobs.poll.after unsweptSite).inventory.files.keys = [⟨"g"⟩] ∧
    (Jobs.poll.after unsweptSite).tasks.length = 1 ∧
    Jobs.poll.answer unsweptSite = .ok { expired := [⟨"k"⟩], stillPreparing := 1 } ∧
    Jobs.poll.answer (Jobs.poll.after unsweptSite) = .ok { stillPreparing := 1 } ∧
    Jobs.poll.after (Jobs.poll.after unsweptSite) = Jobs.poll.after unsweptSite := by
  obtain ⟨p, hp, hagain⟩ := sweep_is_idempotent (s := unsweptSite) ⟨rfl, rfl, rfl, rfl, rfl⟩ (fun _ => rfl)
    (((Inventory.Named.fresh.saveFile _).saveJob _).saveJob _)
  have hreport : (Jobs.poll.answer unsweptSite).toOption =
      some { expired := [⟨"k"⟩], stillPreparing := 1 } := by decide +kernel
  obtain rfl : p = { expired := [⟨"k"⟩], stillPreparing := 1 } := by
    rw [hp] at hreport
    exact Option.some.inj hreport
  exact ⟨by decide +kernel, by decide +kernel, hp, hagain⟩

end Depot
