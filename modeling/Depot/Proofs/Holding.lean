import Depot.Proofs.Run

/-!
# Ready jobs hold their files

A job becomes ready when its files are there and may not be evicted before it expires, and from then on it
stays so. Nothing evicts a file that a live job refers to; a file that is there is never transferred again;
and an unlock time only moves forward. So whatever happens later, and whichever call is refused meanwhile,
the files of a ready job are where it found them.

## Main statements

* `Site.ReadyHold.event` — whatever happens in one go, ready jobs hold their files.
* `ready_jobs_hold_their_files` — so they do in every run that begins with nothing.

## Honest scope

Who packages catalogues may give jobs any status but that of a ready one.
-/

namespace Depot

open Act Time

variable {s s' : Site}

/-! ### Single files -/

/-- A file that a live job holds is still held after evictions. -/
theorem Inventory.HoldsUntil.evict {r : RequestId} {id : FileId} {time : Instant} (c : Evict s s')
    (live : s.inventory.Lives r) (h : s.inventory.HoldsUntil r id time) :
    s'.inventory.HoldsUntil r id time := by
  obtain ⟨hrefers, f, u, hf, hthere, hu, hle⟩ := h
  refine ⟨Evictions.refers (.single c) live hrefers, f, u, ?_, hthere, hu, hle⟩
  cases c with
  | aside a => cases a; exact hf
  | evicted disk kept unlocked free unpinned =>
    have hne := live.ne_of_unpinned hrefers unpinned
    exact (Inventory.get?_deleteFile_of_ne _ hne).trans hf

/-- A record that is kept in place of another file's leaves a file held. -/
theorem Inventory.HoldsUntil.saveFile {v : Inventory} {r : RequestId} {id : FileId} {time : Instant}
    {f : FileRecord} (h : v.HoldsUntil r id time) (ne : id ≠ f.fileId) :
    (v.saveFile f).HoldsUntil r id time := by
  obtain ⟨hrefers, g, u, hg, hrest⟩ := h
  exact ⟨hrefers, g, u, (Inventory.get?_saveFile_of_ne _ ne).trans hg, hrest⟩

/-- A file that is held is not one that is wanted. -/
theorem Inventory.HoldsUntil.ne_of_wants {v : Inventory} {r : RequestId} {id : FileId} {time : Instant}
    {f : FileRecord} (h : v.HoldsUntil r id time) (wanted : v.Wants f) : id ≠ f.fileId := by
  rintro rfl
  obtain ⟨-, g, u, hg, hthere, -⟩ := h
  exact (wanted.kept g hg).1 hthere

/-- A file that is held is not on its way. -/
theorem Inventory.HoldsUntil.ne_of_carried {r : RequestId} {id : FileId} {time : Instant}
    {f : FileRecord} (h : s.inventory.HoldsUntil r id time) (hb : s.Balanced) (hf : f ∈ s.carried) :
    id ≠ f.fileId := by
  rintro rfl
  obtain ⟨-, g, u, hg, hthere, -⟩ := h
  rw [hb.kept f hf] at hg
  cases hg
  have hpending := hb.pending f hf
  rw [FileRecord.isPending, hthere.available] at hpending
  cases hpending

/-- What happens to files leaves the files held that live jobs hold. -/
theorem Inventory.HoldsUntil.fileChange {r : RequestId} {id : FileId} {time : Instant}
    (c : FileChange s s') (live : s.inventory.Lives r) (h : s.inventory.HoldsUntil r id time) :
    s'.inventory.HoldsUntil r id time := by
  cases c with
  | evict e => exact h.evict e live
  | attached id' r' =>
    exact ⟨(Inventory.refers_addReference ..).2 (.inr h.1), h.2⟩
  | detached id' r' absent =>
    obtain ⟨hrefers, f, u, hf, hrest⟩ := h
    have hne : id ≠ id' := by
      rintro rfl
      rw [absent] at hf
      cases hf
    refine ⟨(Inventory.refers_removeReference_of_ne _ hne r' r).trans hrefers, f, u, ?_, hrest⟩
    rw [Inventory.files_removeReference]
    exact hf
  | queued time' grounded wanted room => exact h.saveFile (h.ne_of_wants wanted)
  | unlocked grounded wanted kept locked =>
    have hne := h.ne_of_wants wanted
    exact h.saveFile hne
  | strayed => exact h
  | extended time' kept there grounded =>
    exact (Jobs.Lengthened.extendUnlock time' kept there grounded).holdsUntil r id time h

/-- What happens to transfers leaves alone the files that are held. -/
theorem Inventory.HoldsUntil.transferChange {r : RequestId} {id : FileId} {time : Instant}
    (c : TransferChange s s') (hb : s.Balanced) (h : s.inventory.HoldsUntil r id time) :
    s'.inventory.HoldsUntil r id time := by
  cases c with
  | moved => exact h
  | arrived d place tasks rest | givenUp e tasks rest | setBack e tasks others rest =>
    have hne := h.ne_of_carried hb (rest.mem_iff.2 (.head _))
    exact h.saveFile hne
  | brokenOff => exact h

/-! ### Ready jobs -/

/-- A job that is ready has a time of expiry, and holds its files until then. -/
def Inventory.HoldsFiles (v : Inventory) (j : Job) : Prop :=
  j.status = .ready → ∃ expiry, j.expiresAt = some expiry ∧
    ∀ e ∈ j.retrievable, v.HoldsUntil j.requestId e.fileId expiry

/-- **Ready jobs hold their files.** -/
def Site.ReadyHold (s : Site) : Prop :=
  ∀ r j, s.inventory.jobs.get? r = some j → s.inventory.HoldsFiles j

/-- A job is replaced by another that holds its files if it is ready. -/
theorem Site.ReadyHold.saveJob {j : Job} (h : s.ReadyHold) (log : List Happening)
    (holds : s.inventory.HoldsFiles j) :
    { s with inventory := s.inventory.saveJob j, log := log }.ReadyHold := by
  intro r k hk
  dsimp only at hk
  rw [Inventory.get?_saveJob] at hk
  split at hk
  · cases hk
    exact holds
  · exact h r k hk

theorem Site.ReadyHold.overwriteStatus (h : s.ReadyHold) {r : RequestId} {status : JobStatus}
    (unready : status ≠ .ready) :
    { s with inventory := s.inventory.overwriteStatus r status }.ReadyHold := by
  unfold Inventory.overwriteStatus
  cases s.inventory.jobs.get? r with
  | none => exact h
  | some j => exact h.saveJob s.log fun hready => absurd hready unready

/-- What keeps all jobs, and the files held by those that are live, keeps ready jobs holding theirs. -/
theorem Site.ReadyHold.keep (h : s.ReadyHold) (hn : s.inventory.Named)
    (jobs : s'.inventory.jobs = s.inventory.jobs)
    (holds : ∀ r id time, s.inventory.Lives r → s.inventory.HoldsUntil r id time →
      s'.inventory.HoldsUntil r id time) : s'.ReadyHold := by
  intro r j hj hready
  rw [jobs] at hj
  obtain ⟨expiry, hexpiry, hfiles⟩ := h r j hj hready
  have live : s.inventory.Lives j.requestId :=
    ⟨j, by rw [hn.jobs r j hj]; exact hj, by rw [hready]; rfl⟩
  exact ⟨expiry, hexpiry, fun e he => holds _ _ _ live (hfiles e he)⟩

theorem Site.ReadyHold.jobChange (h : s.ReadyHold) (c : JobChange s s') : s'.ReadyHold := by
  cases c with
  | administered next kept allowed either =>
    refine h.saveJob s.log fun hready => ?_
    rcases either with rfl | rfl <;> cases hready
  | failed | expired | cancelled => exact h.saveJob _ fun hready => by cases hready
  | readied expiry kept preparing ends held grounded =>
    exact h.saveJob _ fun _ => ⟨expiry, rfl, held⟩

theorem Site.ReadyHold.change (h : s.ReadyHold) (hb : s.Balanced) (c : Change s s') :
    s'.ReadyHold := by
  cases c with
  | file c =>
    exact h.keep hb.named (FileCourse.frame (.single c)).jobs fun _ _ _ live hold =>
      hold.fileChange c live
  | transfer c =>
    refine h.keep hb.named ?_ fun _ _ _ _ hold => hold.transferChange c hb
    cases c <;> rfl
  | job c => exact h.jobChange c
  | warned | told | clocked | duties | spoiled => exact h

theorem Site.ReadyHold.founding {r : RequestId} (h : s.ReadyHold) (unready : ¬s.Interferes .ready)
    (c : Founding r s s') : s'.ReadyHold := by
  cases c with
  | created => exact h.saveJob s.log fun hready => by cases hready
  | packaged => exact h
  | overwritten status meddled =>
    exact h.overwriteStatus fun hready => unready (hready ▸ meddled)

/-- **Whatever happens in one go**, ready jobs hold their files. -/
theorem Site.ReadyHold.event (h : s.ReadyHold) (hb : s.Balanced) (unready : ¬s.Interferes .ready)
    (e : Event s s') : s'.ReadyHold := by
  cases e with
  | deed d =>
    cases d with
    | change c => exact h.change hb c
    | founding r c => exact h.founding unready c
  | reopened => exact h

/-! ### Runs -/

theorem Site.ReadyHold.history (h : s.ReadyHold) (hb : s.Balanced) (unready : ¬s.Interferes .ready)
    (c : History s s') : s'.ReadyHold := by
  induction c with
  | refl => exact h
  | tail hc e ih =>
    exact ih.event (hb.history hc) (fun hready => unready (Site.Interferes.history hc hready)) e

/-- **Every ready job has its files.** In every run that begins with nothing, whichever calls are refused
and wherever the clock is set: each file of a ready job is there, with a size, and has not failed, the job
refers to it, and it may not be evicted before the job expires. -/
theorem ready_jobs_hold_their_files (h : s.Secluded) (ho : s.Opened)
    (fresh : s.inventory = .fresh) (unready : ¬s.Interferes .ready) (steps : List Step)
    {r : RequestId} {j : Job} (kept : (s.run steps).inventory.jobs.get? r = some j)
    (ready : j.status = .ready) :
    ∃ expiry, j.expiresAt = some expiry ∧ ∀ e ∈ j.manifest, e.kind.isCatalogue = false →
      (s.run steps).inventory.refers e.fileId r = true ∧
      ∃ f u, (s.run steps).inventory.files.get? e.fileId = some f ∧ f.available = true ∧
        f.sizeKb.isSome = true ∧ f.failed = false ∧ f.unlockAt = some u ∧ expiry ≤ u := by
  have hb := ho.balanced (fresh ▸ .fresh)
  have hrun := Site.run_history ⟨h, hb⟩ steps
  have hstart : s.ReadyHold := by
    intro r j hj
    rw [fresh] at hj
    cases hj
  obtain ⟨expiry, hexpiry, hfiles⟩ := hstart.history hb unready hrun r j kept ready
  have hid : j.requestId = r := (hb.history hrun).named.jobs r j kept
  refine ⟨expiry, hexpiry, fun e he hkind => ?_⟩
  have hretrievable : e ∈ j.retrievable := by
    refine List.mem_filter.2 ⟨he, ?_⟩
    rw [ManifestEntry.isRetrievable, hkind]
    rfl
  obtain ⟨hrefers, f, u, hf, hthere, hu, hle⟩ := hfiles e hretrievable
  rw [hid] at hrefers
  exact ⟨hrefers, f, u, hf, hthere.available, hthere.sized, hthere.sound, hu, hle⟩

/-- A depot is asked for a job of one file, the file arrives, and the job is brought forward. -/
def oneFileRun : List Step :=
  [.create ⟨"j"⟩ .web [⟨⟨"f"⟩, .spectrum, none, none⟩], .move 0, .move 0, .poll]

theorem job_of_one_file_holds_it :
    ∃ j, ((Site.blank { cacheRoot := "cache" }).run oneFileRun).inventory.jobs.get? ⟨"j"⟩ = some j ∧
      j.status = .ready ∧ ∃ expiry, j.expiresAt = some expiry ∧
        ∀ e ∈ j.manifest, e.kind.isCatalogue = false →
          ((Site.blank { cacheRoot := "cache" }).run oneFileRun).inventory.refers e.fileId ⟨"j"⟩ = true ∧
          ∃ f u, ((Site.blank { cacheRoot := "cache" }).run oneFileRun).inventory.files.get? e.fileId =
            some f ∧ f.available = true ∧ f.sizeKb.isSome = true ∧ f.failed = false ∧
            f.unlockAt = some u ∧ expiry ≤ u := by
  have hready : (((Site.blank { cacheRoot := "cache" }).run oneFileRun).inventory.jobs.get? ⟨"j"⟩).map
      Job.status = some .ready := by decide +kernel
  obtain ⟨j, hj, hstatus⟩ := Option.map_eq_some_iff.1 hready
  refine ⟨j, hj, hstatus, ready_jobs_hold_their_files (Site.secluded_blank _) (Site.opened_blank _) rfl
    ?_ oneFileRun hj hstatus⟩
  rintro ⟨p, id, hp, -⟩
  cases hp

end Depot
