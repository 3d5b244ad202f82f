import Depot.Proofs.Provision
import Depot.Proofs.Sending

/-!
# Waiting jobs

A job that still waits when a sweep is over waits for something: each of its files is there or on its way, and
one of them is on its way, so it has a transfer. Nothing is asked of the depot before that, but that records
are kept under their names and that what counts as on its way has a transfer. A record may be missing, show a
file that is there but has no size, or be still to come with nobody bringing it; references may be lost. The
sweep asks for every file of every job anew, and so puts all of that right.

## Main statements

* `sweep_leaves_transfers` — after a sweep every waiting job has a transfer to wait for.
-/

namespace Depot

open Act Time

variable {s : Site}

/-- The entries of a job that are asked for are those that are no catalogues. -/
theorem Job.mem_retrievable {j : Job} {e : ManifestEntry} :
    e ∈ j.retrievable ↔ e ∈ j.manifest ∧ e.kind.isCatalogue = false := by
  rw [Job.retrievable, List.mem_filter, ManifestEntry.isRetrievable, Bool.not_eq_true']

/-- **A sweep leaves no waiting job without a transfer.** Where no call is refused, everything is kept under its
own name, and what is in flight is what has a transfer, a sweep gives an answer, and afterwards what is in
flight is again what has a transfer. Every job that is then still being prepared refers to each file of its
manifest that is no catalogue; each of these is in flight, or is there, with a size, and has not failed; and
one of them is in flight. -/
theorem sweep_leaves_transfers (h : s.Secluded) (faultless : s.Faultless) (hn : s.inventory.Named)
    (matched : s.Matched) :
    ∃ p, Jobs.poll.answer s = .ok p ∧ (Jobs.poll.after s).Matched ∧
      ∀ r j, (Jobs.poll.after s).inventory.jobs.get? r = some j → j.status = .preparing →
        (∀ e ∈ j.manifest, e.kind.isCatalogue = false →
          (Jobs.poll.after s).inventory.refers e.fileId r = true ∧
          ((Jobs.poll.after s).inFlight.contains e.fileId = true ∨
            ∃ f, (Jobs.poll.after s).inventory.files.get? e.fileId = some f ∧
              f.available = true ∧ f.sizeKb.isSome = true ∧ f.failed = false)) ∧
        ∃ e ∈ j.manifest, e.kind.isCatalogue = false ∧
          (Jobs.poll.after s).inFlight.contains e.fileId = true := by
  have horderly : s.Orderly := ⟨⟨h, faultless⟩, hn⟩
  have hsendings : Sendings s (Jobs.poll.after s) := Leads.after (Jobs.sendings_poll s)
  obtain ⟨p, hp, -, hsettled, -⟩ := (Jobs.leads_poll_settles horderly.quiet hn).exists_ok
  refine ⟨p, hp, hsendings.matched horderly matched, fun r j hj hpreparing => ?_⟩
  have hnamed := (hsendings.queues.order.orderly horderly).named
  obtain rfl : j.requestId = r := hnamed.jobs r j hj
  have hawaits := hsettled.waiting j (hnamed.mem_jobsWithStatus.2 ⟨hj, hpreparing⟩)
  constructor
  · intro e he hkind
    have hprovided := hawaits.provided e (Job.mem_retrievable.2 ⟨he, hkind⟩)
    refine ⟨hprovided.refers, hprovided.coming.imp_right ?_⟩
    rintro ⟨f, hf, hthere⟩
    exact ⟨f, hf, hthere.available, hthere.sized, hthere.sound⟩
  · obtain ⟨e, he, hflying⟩ := hawaits.flying
    obtain ⟨he, hkind⟩ := Job.mem_retrievable.1 he
    exact ⟨e, he, hkind, hflying⟩

/-- A depot where a job waits for three files, and nobody brings one of them: the first is there but has no
size, the second is still to come, and the third is unknown. The job refers to none of them. -/
def neglectedSite : Site :=
  let entry (id : String) : ManifestEntry := ⟨⟨id⟩, .spectrum, none, none⟩
  { Site.blank { cacheRoot := "cache" } with
    inventory :=
      ((Inventory.fresh.saveFile { FileRecord.ofEntry (entry "f") 0 with available := true }).saveFile
        (.ofEntry (entry "g") 0)).saveJob (.create ⟨"j"⟩ .web [entry "f", entry "g", entry "h"] .epoch) }

/-- The job goes on waiting, and then a file that it refers to has a transfer. -/
theorem sweep_of_neglectedSite :
    neglectedSite.transfers.length = 0 ∧
    ∃ e, (Jobs.poll.after neglectedSite).inventory.refers e ⟨"j"⟩ = true ∧
      ∃ t ∈ (Jobs.poll.after neglectedSite).transfers, t.record.fileId = e := by
  have hnone : neglectedSite.transfers = [] := rfl
  obtain ⟨p, -, hmatched, hwaiting⟩ := sweep_leaves_transfers (s := neglectedSite)
    ⟨rfl, rfl, rfl, rfl, rfl⟩ (fun _ => rfl) (((Inventory.Named.fresh.saveFile _).saveFile _).saveJob _)
    (fun id => by simp [hnone]; rfl)
  have hkept : (((Jobs.poll.after neglectedSite).inventory.jobs.get? ⟨"j"⟩).map Job.status) =
      some .preparing := by decide +kernel
  obtain ⟨j, hj, hpreparing⟩ := Option.map_eq_some_iff.1 hkept
  obtain ⟨hfiles, e, he, hkind, hflying⟩ := hwaiting ⟨"j"⟩ j hj hpreparing
  exact ⟨rfl, e.fileId, (hfiles e he hkind).1, (hmatched e.fileId).1 hflying⟩

end Depot
