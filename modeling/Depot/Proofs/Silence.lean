import Depot.Proofs.Clearance

/-!
# What tells nobody

Notices are delivered when a step of a job has been stored, and at no other time. Everything that goes on
until then is silent: records are read and written, files are evicted to make room, transfers are queued. That
is so in any depot, and whether the operation fails or not; an operation is silent if its parts are.

## Main statements

* `Act.Silent.bind` — an operation is silent if its parts are.
* `Jobs.silent_assess` — asking for the files of a job tells nobody.
-/

namespace Depot

open Act

variable {α β : Type} {s s' : Site}

/-! ### Notices delivered -/

/-- The notice that an entry of the log is. -/
def Happening.told? : Happening → Option Notice
  | .told n => some n
  | _ => none

/-- The notices that have been delivered. -/
def Site.tells (s : Site) : List Notice := s.log.filterMap Happening.told?

theorem Site.tells_append {more : List Happening} (log : s'.log = s.log ++ more) :
    s'.tells = s.tells ++ more.filterMap Happening.told? := by
  rw [tells, log, List.filterMap_append, tells]

theorem Site.tells_told {n : Notice} (log : s'.log = s.log ++ [.told n]) : s'.tells = s.tells ++ [n] :=
  tells_append log

theorem Site.Stays.tells (h : s.Stays s') : s'.tells = s.tells := by
  rw [h.eq]
  rfl

/-! ### Silent operations -/

/-- **An operation tells nobody**, wherever it is begun and whether it fails or not. -/
def Act.Silent (x : Act α) : Prop :=
  ∀ s, Leads x (fun _ s' => s'.tells = s.tells) (fun _ s' => s'.tells = s.tells) s

namespace Act.Silent

variable {x : Act α}

theorem pure (a : α) : (Pure.pure a : Act α).Silent := fun s => by rw [leads_pure]

theorem throw (e : Failure) : (throw e : Act α).Silent := fun s => by rw [leads_throw]

theorem get : (get : Act Site).Silent := fun s => by rw [leads_get]

theorem modify {f : Site → Site} (same : ∀ s, (f s).log = s.log) : (modify f : Act Unit).Silent :=
  fun s => by
    rw [leads_modify]
    exact congrArg (List.filterMap Happening.told?) (same s)

theorem note {h : Happening} (quiet : h.told? = none) : (note h).Silent := fun s => by
  rw [leads_note]
  refine (Site.tells_append rfl).trans ?_
  rw [List.filterMap_cons_none quiet]
  exact List.append_nil _

theorem of_stays (h : ∀ s, Leads x (fun _ s' => s.Stays s') (fun _ s' => s.Stays s') s) : x.Silent :=
  fun s => (h s).mono (fun _ _ => Site.Stays.tells) fun _ _ => Site.Stays.tells

theorem now : now.Silent := fun s => by rw [leads_now]

theorem join (t : Task) : (join t).Silent := fun s => by
  rw [leads_join]
  rfl

/-- An operation is silent if its parts are. -/
theorem bind {f : α → Act β} (hx : x.Silent) (hf : ∀ a, (f a).Silent) : (x >>= f).Silent := fun s => by
  rw [leads_bind]
  refine (hx s).mono (fun _ _ h => h) fun a s₁ h => ?_
  exact (hf a s₁).mono (fun _ _ h' => h'.trans h) fun _ _ h' => h'.trans h

/-- After a failure nothing is done. -/
theorem throw_bind (e : Failure) (f : α → Act β) : (MonadExcept.throw e >>= f : Act β).Silent := fun s => by
  rw [leads_bind, leads_throw]

theorem attempt (hx : x.Silent) : (attempt x).Silent := fun s => by
  rw [leads_attempt]
  exact hx s

theorem ite {b : Bool} {y : Act α} (hx : x.Silent) (hy : y.Silent) : (if b = true then x else y).Silent := by
  cases b with
  | true => exact hx
  | false => exact hy

end Act.Silent

/-! ### Calls of the inventory -/

namespace Records

theorem silent_reach (call : StoreCall) : (reach call).Silent :=
  .of_stays fun s => (leads_reach_stays call s).mono (fun _ _ h => h.2) fun _ _ h => h

theorem silent_strikes (f : Fault) : (strikes f).Silent :=
  .of_stays fun s => (leads_strikes f s).mono (fun _ _ h => h.elim) fun _ _ h => h.1

theorem silent_change (f : Inventory → Inventory) : (change f).Silent := fun s => by
  refine (leads_change_anywhere f s).mono ?_ ?_ <;> rintro _ _ ⟨disk, -, rfl⟩ <;> rfl

theorem silent_read (call : StoreCall) (g : Inventory → α) :
    (do reach call; return g (← get).inventory : Act α).Silent :=
  .bind (silent_reach call) fun _ => .bind .get fun _ => .pure _

theorem silent_look (call : StoreCall) (f : Fault) (g : Inventory → Option α) :
    (do
      reach call
      if ← strikes f then return none
      return g (← get).inventory : Act (Option α)).Silent :=
  .bind (silent_reach call) fun _ => .bind (silent_strikes f) fun _ =>
    .ite (.pure _) (.bind .get fun _ => .pure _)

theorem silent_loadFile (id : FileId) : (loadFile id).Silent := silent_look .loadFile .missFile (·.files.get? id)

theorem silent_saveFile (f : FileRecord) : (saveFile f).Silent :=
  .bind (silent_reach _) fun _ => silent_change _

theorem silent_saveJob (j : Job) : (saveJob j).Silent := .bind (silent_reach _) fun _ => silent_change _

theorem silent_findByStatus (status : JobStatus) : (findByStatus status).Silent :=
  silent_read .findByStatus (·.jobsWithStatus status)

theorem silent_findUnlocked (time : Time.Instant) : (findUnlocked time).Silent :=
  silent_read .findUnlocked (·.unlockedBefore time)

theorem silent_addReference (id : FileId) (r : RequestId) : (addReference id r).Silent :=
  .bind (silent_reach _) fun _ => .bind .get fun _ => .ite (silent_change _) (.pure _)

theorem silent_removeReference (id : FileId) (r : RequestId) : (removeReference id r).Silent :=
  .bind (silent_reach _) fun _ => .bind .get fun _ => .ite (silent_change _) (.pure _)

theorem silent_deleteFile (id : FileId) : (deleteFile id).Silent :=
  .bind (silent_reach _) fun _ => .bind (silent_strikes _) fun _ =>
    .ite (.pure _) (.bind .get fun _ => .bind (silent_change _) fun _ => .pure _)

end Records

/-! ### Making room -/

namespace Room

theorem silent_isPinned (id : FileId) : (isPinned id).Silent := .of_stays (leads_isPinned_stays id)

theorem silent_evictFile (id : FileId) : (evictFile id).Silent := by
  refine .bind (Records.silent_deleteFile id) fun found => ?_
  cases found with
  | none => exact .pure _
  | some f =>
    have herase : (eraseBytes f).Silent := fun s => by
      rw [leads_eraseBytes_iff]
      rfl
    exact .bind herase fun _ => .bind (.modify fun _ => rfl) fun _ => .bind .now fun _ =>
      .bind .get fun _ => .bind (.note rfl) fun _ => .pure _

theorem silent_evictAmong (required : Option UInt64) : ∀ (l : List FileRecord) (done : Reclaim),
    (evictAmong required l done).Silent
  | [], done => .pure done
  | f :: rest, done => by
    have hrest := silent_evictAmong required rest
    refine .bind .get fun _ => .ite (.pure _) (.bind .get fun _ => .ite (hrest done) ?_)
    refine .bind (silent_isPinned f.fileId) fun pinned => .ite (hrest done) ?_
    refine .bind (silent_evictFile f.fileId) fun kb => ?_
    cases kb with
    | none => exact hrest done
    | some kb => exact hrest _

theorem silent_evict (required : Option UInt64) : (evict required).Silent :=
  .bind .now fun _ => .bind (Records.silent_findUnlocked _) fun l =>
    .bind (silent_evictAmong required l {}) fun _ => .bind .get fun _ => .pure _

theorem silent_reserve (id : FileId) (kb : UInt64) : (reserve id kb).Silent := by
  have hreserve : (modify fun s : Site => { s with account := s.account.reserve id kb } : Act Unit).Silent :=
    .modify fun _ => rfl
  refine .bind .get fun _ => .ite (.pure _) (.bind .get fun _ => .ite ?_ hreserve)
  refine .bind (silent_evict _) fun done => .ite ?_ hreserve
  exact .bind .get fun _ => .bind (.throw _) fun _ => hreserve

theorem silent_release (id : FileId) : (release id).Silent := .modify fun _ => rfl

end Room

/-! ### Asking for files -/

namespace Transfers

theorem silent_leaveFlight (id : FileId) : (leaveFlight id).Silent := .modify fun _ => rfl

theorem silent_enterFlight (id : FileId) : (enterFlight id).Silent := .modify fun _ => rfl

theorem silent_unlock (f : FileRecord) : (unlock f).Silent := by
  unfold unlock
  split
  · exact .bind (Records.silent_loadFile _) fun _ =>
      .ite (.bind .now fun _ => Records.silent_saveFile _) (.pure _)
  · exact .pure _

theorem silent_queue (f : FileRecord) : (queue f).Silent := by
  refine .bind (.attempt (Room.silent_reserve _ _)) fun reserved => ?_
  cases reserved with
  | error e =>
    exact .bind (silent_unlock f) fun _ => .bind (silent_leaveFlight _) fun _ => .throw e
  | ok =>
    refine .bind (.attempt (Records.silent_saveFile f)) fun saved => ?_
    cases saved with
    | error e =>
      exact .bind (Room.silent_release _) fun _ => .bind (silent_leaveFlight _) fun _ => .throw e
    | ok => exact .bind (.note rfl) fun _ => .bind .get fun _ => .join _

theorem silent_ensure (r : RequestId) (entry : ManifestEntry) : (ensure r entry).Silent := by
  unfold ensure
  split
  · exact .throw_bind _ _
  refine .bind (Records.silent_addReference _ _) fun _ => .bind .get fun _ => .ite (.pure _) ?_
  refine .bind (Records.silent_loadFile _) fun found => .bind .get fun _ => ?_
  split
  · exact .pure _
  next f isNew _ =>
  refine .bind (silent_enterFlight _) fun _ => .bind (.attempt (silent_queue f)) fun queued => ?_
  cases queued with
  | ok => exact .pure _
  | error e => exact .ite (.bind (Records.silent_removeReference _ _) fun _ => .throw e) (.throw e)

end Transfers

namespace Jobs

theorem silent_assessEntries (r : RequestId) (expectRecords : Bool) : ∀ (l : List ManifestEntry) (waiting : Bool),
    (assessEntries r expectRecords l waiting).Silent
  | [], waiting => .pure _
  | e :: rest, waiting => by
    have hnext := silent_assessEntries r expectRecords rest
    have hload := Records.silent_loadFile e.fileId
    simp only [assessEntries]
    suffices hask : Silent _ by exact .ite (.bind hload fun _ => hask) hask
    refine .bind (.attempt (Transfers.silent_ensure r e)) fun answer => ?_
    split
    · exact hnext _
    · exact hnext _
    · exact .bind hload fun _ => .pure _
    · split
      · exact .pure _
      · exact .throw _

/-- **To ask for the files of a job** tells nobody. -/
theorem silent_assess (job : Job) (expectRecords : Bool) : (assess job expectRecords).Silent :=
  silent_assessEntries _ _ _ _

theorem silent_keepUntil (time : Time.Instant) : ∀ l : List ManifestEntry, (keepUntil time l).Silent
  | [] => .pure _
  | e :: rest => by
    refine .bind (Records.silent_loadFile e.fileId) fun found => ?_
    split
    · exact .bind (Records.silent_saveFile _) fun _ => silent_keepUntil time rest
    · exact silent_keepUntil time rest

end Jobs

end Depot
