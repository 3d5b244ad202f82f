import Depot.Proofs.Change
import Depot.Proofs.Inventory

/-!
# Steps of the life cycle

A job is written by many operations, and each of them writes other fields. Yet each of these changes is one
step along the life cycle of the job, and is logged as that; and the fields of a job agree with its status
afterwards if they did before. What agrees with what is listed once, in `Job.Coherent`.

## Main statements

* `JobChange.enters` — every change of a job is such a step.
-/

namespace Depot

open Time

variable {s s' : Site} {ttl : DownloadMode → Int}

/-! ### Coherent jobs -/

/-- **The fields of a job agree with its status**, where a ready job is kept for a time by its mode. -/
def Job.Coherent (ttl : DownloadMode → Int) (j : Job) : Prop :=
  match j.status with
  | .preparing | .paused => j.availableAt = none ∧ j.expiresAt = none ∧ j.errorMessage = none
  | .ready => j.availableAt = some j.modifiedAt ∧ j.errorMessage = none ∧
      ∃ expiry, j.modifiedAt.addMillis? (ttl j.mode) = some expiry ∧ j.expiresAt = some expiry
  | .error => j.availableAt = none ∧ j.expiresAt = none ∧ j.errorMessage.isSome = true
  | .expired => j.availableAt.isSome = true ∧ j.errorMessage = none ∧
      ∃ expiry, j.expiresAt = some expiry ∧ expiry ≤ j.modifiedAt
  | .cancelled => j.expiresAt = some j.modifiedAt ∧ j.errorMessage = some Jobs.cancelledMessage

namespace Job.Coherent

variable {j : Job}

theorem create (r : RequestId) (mode : DownloadMode) (manifest : List ManifestEntry) (now : Instant) :
    (Job.create r mode manifest now).Coherent ttl := ⟨rfl, rfl, rfl⟩

theorem of_preparing (h : j.Coherent ttl) (preparing : j.status = .preparing) :
    j.availableAt = none ∧ j.expiresAt = none ∧ j.errorMessage = none := by
  rwa [Coherent, preparing] at h

/-- What is paused, or prepared again, has not been ready. -/
theorem administer (h : j.Coherent ttl) {next : JobStatus} (allowed : j.status.canBecome next = true)
    (either : next = .paused ∨ next = .preparing) (now : Instant) :
    Coherent ttl { j with status := next, modifiedAt := now } := by
  rcases either with rfl | rfl
  · exact h.of_preparing (JobStatus.eq_preparing_of_canBecome allowed)
  · rw [Coherent, JobStatus.eq_paused_of_canBecome allowed] at h
    exact h

/-- A ready job whose time is over may expire. -/
theorem expire (h : j.Coherent ttl) (ready : j.status = .ready) {now : Instant}
    (due : j.isExpiredAt now = true) : Coherent ttl { j with status := .expired, modifiedAt := now } := by
  rw [Coherent, ready] at h
  obtain ⟨available, message, expiry, -, hexpiry⟩ := h
  rw [Job.isExpiredAt, hexpiry] at due
  exact ⟨by rw [available]; rfl, message, expiry, hexpiry, of_decide_eq_true due⟩

end Job.Coherent

/-! ### What stays of a job -/

/-- What stays of a job, and all of it once it has ended. -/
structure Job.GoesOn (j j' : Job) : Prop where
  requestId : j'.requestId = j.requestId
  createdAt : j'.createdAt = j.createdAt
  mode : j'.mode = j.mode
  manifest : j'.manifest = j.manifest
  ended : j.status.isTerminal = true → j' = j

namespace Job.GoesOn

theorem refl (j : Job) : j.GoesOn j := ⟨rfl, rfl, rfl, rfl, fun _ => rfl⟩

theorem trans {j j' j'' : Job} (h : j.GoesOn j') (h' : j'.GoesOn j'') : j.GoesOn j'' := by
  refine ⟨h'.requestId.trans h.requestId, h'.createdAt.trans h.createdAt, h'.mode.trans h.mode,
    h'.manifest.trans h.manifest, fun hended => ?_⟩
  obtain rfl := h.ended hended
  exact h'.ended hended

/-- No step of the life cycle leaves a job that has ended. -/
theorem of_canBecome {j j' : Job} (requestId : j'.requestId = j.requestId)
    (createdAt : j'.createdAt = j.createdAt) (mode : j'.mode = j.mode)
    (manifest : j'.manifest = j.manifest) (allowed : j.status.canBecome j'.status = true) :
    j.GoesOn j' := by
  refine ⟨requestId, createdAt, mode, manifest, fun hended => ?_⟩
  rw [(JobStatus.isTerminal_iff _).1 hended] at allowed
  cases allowed

end Job.GoesOn

/-! ### Statuses in the log -/

/-- The status that a job has been given when it is told of. -/
def Notice.status? : Notice → Option JobStatus
  | ready .. => some .ready
  | failed .. => some .error
  | expired _ => some .expired
  | cancelled _ => some .cancelled
  | expiringSoon .. => none

/-- The status that a job has been given, as an entry of the log tells. -/
def Happening.status? (r : RequestId) : Happening → Option JobStatus
  | .told n => if n.request = r then n.status? else none
  | .ordered q status => if q = r then some status else none
  | _ => none

/-! ### Steps -/

/-- A job takes a step of its life cycle, which is logged. -/
structure Enters (s s' : Site) (j j' : Job) (h : Happening) : Prop where
  kept : s.inventory.jobs.get? j.requestId = some j
  written : s'.inventory = s.inventory.saveJob j'
  allowed : j.status.canBecome j'.status = true
  goesOn : j.GoesOn j'
  logged : s'.log = s.log ++ [h]
  told : h.status? j.requestId = some j'.status
  ofOthers : ∀ r, r ≠ j.requestId → h.status? r = none
  coherent : j.Coherent s.settings.ttlMs → j'.Coherent s.settings.ttlMs

/-- **Every change of a job is a step of its life cycle.** -/
theorem JobChange.enters (c : JobChange s s') : ∃ j j' h, Enters s s' j j' h := by
  cases c with
  | @administered j next kept allowed either =>
    exact ⟨j, _, _, kept, rfl, allowed, .of_canBecome rfl rfl rfl rfl allowed, rfl, if_pos rfl,
      fun r hr => if_neg hr.symm, fun h => h.administer allowed either _⟩
  | @failed j message kept preparing =>
    have hallowed : j.status.canBecome .error = true := by rw [preparing]; rfl
    refine ⟨j, _, _, kept, rfl, hallowed, .of_canBecome rfl rfl rfl rfl hallowed, rfl, if_pos rfl,
      fun r hr => if_neg hr.symm, fun h => ?_⟩
    obtain ⟨available, expires, -⟩ := h.of_preparing preparing
    exact ⟨available, expires, rfl⟩
  | @readied j expiry kept preparing ends =>
    have hallowed : j.status.canBecome .ready = true := by rw [preparing]; rfl
    refine ⟨j, _, _, kept, rfl, hallowed, .of_canBecome rfl rfl rfl rfl hallowed, rfl, if_pos rfl,
      fun r hr => if_neg hr.symm, fun h => ?_⟩
    exact ⟨rfl, (h.of_preparing preparing).2.2, expiry, ends, rfl⟩
  | @expired j kept ready due =>
    have hallowed : j.status.canBecome .expired = true := by rw [ready]; rfl
    exact ⟨j, _, _, kept, rfl, hallowed, .of_canBecome rfl rfl rfl rfl hallowed, rfl, if_pos rfl,
      fun r hr => if_neg hr.symm, fun h => h.expire ready due⟩
  | @cancelled j kept live =>
    have hallowed := JobStatus.canBecome_cancelled live
    exact ⟨j, _, _, kept, rfl, hallowed, .of_canBecome rfl rfl rfl rfl hallowed, rfl, if_pos rfl,
      fun r hr => if_neg hr.symm, fun _ => ⟨rfl, rfl⟩⟩

namespace Enters

variable {j j' : Job} {h : Happening}

/-- After it the job is found in its new state, and the others as they were. -/
theorem get? (e : Enters s s' j j' h) (r : RequestId) :
    s'.inventory.jobs.get? r = if r = j.requestId then some j' else s.inventory.jobs.get? r := by
  rw [e.written, Inventory.get?_saveJob, e.goesOn.requestId]

end Enters

end Depot
