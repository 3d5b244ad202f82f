import Depot.Proofs.Errands
import Depot.Proofs.Quiet
import Depot.Site.Warnings

/-!
# What leaves transfers alone

Most of what a depot does has nothing to do with transfers: records are read and written, files are evicted,
jobs go on, notices are delivered. In all that the tasks stay as they are, nothing is called for, and no time
passes; and where no call of the inventory is refused, that stays so. This holds of every such operation at
any site, and whether it fails or not, so nothing need be known of where it is begun.

## Main statements

* `Records.idles_saveFile`, `Room.idles_reserve` — calls of the inventory, and making room.
* `Jobs.idles_promote`, `Jobs.idles_expireAll`, `Warnings.idles_notify` — what is done to jobs.
-/

namespace Depot

open Act Time

variable {α : Type} {s s' : Site}

/-! ### Depots in order -/

/-- No call is refused, and everything is kept under its own name. -/
structure Site.Orderly (s : Site) : Prop where
  quiet : s.Quiet
  named : s.inventory.Named

/-- **Order is kept** from one site to the next: what is asked of depots in order holds again, one by one. -/
structure Site.KeepsOrder (s s' : Site) : Prop where
  secluded : s.Secluded → s'.Secluded
  faultless : s.Faultless → s'.Faultless
  named : s.inventory.Named → s'.inventory.Named

namespace Site.KeepsOrder

theorem refl (s : Site) : s.KeepsOrder s := ⟨id, id, id⟩

theorem trans {s'' : Site} (h : s.KeepsOrder s') (h' : s'.KeepsOrder s'') : s.KeepsOrder s'' :=
  ⟨h'.secluded ∘ h.secluded, h'.faultless ∘ h.faultless, h'.named ∘ h.named⟩

theorem of_same (storePath : s'.storePath = s.storePath) (faults : s'.faults = s.faults)
    (reactions : s'.reactions = s.reactions) (named : s.inventory.Named → s'.inventory.Named) :
    s.KeepsOrder s' :=
  ⟨fun h => h.of_same storePath faults reactions, fun h fault => by rw [faults, h fault], named⟩

theorem orderly (h : s.KeepsOrder s') (hs : s.Orderly) : s'.Orderly :=
  ⟨⟨h.secluded hs.quiet.toSecluded, h.faultless hs.quiet.faultless⟩, h.named hs.named⟩

end Site.KeepsOrder

/-! ### Logs without calls -/

/-- Whether an entry of the log tells of the beginning or the end of a call. -/
def Happening.isOfCall : Happening → Bool
  | .called .. => true
  | .returned .. => true
  | _ => false

/-- What has happened since is no calls. -/
def Calmer (log log' : List Happening) : Prop := ∃ more, log' = log ++ more ∧ ∀ h ∈ more, h.isOfCall = false

namespace Calmer

theorem refl (log : List Happening) : Calmer log log :=
  ⟨[], (List.append_nil _).symm, fun h hh => by cases hh⟩

theorem trans {l l' l'' : List Happening} (h : Calmer l l') (h' : Calmer l' l'') : Calmer l l'' := by
  obtain ⟨more, rfl, hmore⟩ := h
  obtain ⟨more', rfl, hmore'⟩ := h'
  refine ⟨more ++ more', List.append_assoc .., fun h hh => ?_⟩
  rcases List.mem_append.1 hh with hh | hh
  · exact hmore h hh
  · exact hmore' h hh

theorem concat {h : Happening} (quiet : h.isOfCall = false) (log : List Happening) :
    Calmer log (log ++ [h]) :=
  ⟨[h], rfl, fun h' hh' => by rw [List.mem_singleton.1 hh']; exact quiet⟩

end Calmer

/-! ### Idle operations -/

/-- **Transfers are left alone**: nothing is called for, no time passes, and order is kept. -/
structure Site.Idles (s s' : Site) : Prop where
  tasks : s'.tasks = s.tasks
  inFlight : s'.inFlight = s.inFlight
  supply : s'.supply = s.supply
  clock : s'.clock = s.clock
  settings : s'.settings = s.settings
  log : Calmer s.log s'.log
  order : s.KeepsOrder s'

namespace Site.Idles

theorem refl (s : Site) : s.Idles s := ⟨rfl, rfl, rfl, rfl, rfl, .refl _, .refl s⟩

theorem trans {s'' : Site} (h : s.Idles s') (h' : s'.Idles s'') : s.Idles s'' where
  tasks := h'.tasks.trans h.tasks
  inFlight := h'.inFlight.trans h.inFlight
  supply := h'.supply.trans h.supply
  clock := h'.clock.trans h.clock
  settings := h'.settings.trans h.settings
  log := h.log.trans h'.log
  order := h.order.trans h'.order

theorem of_course (c : Relation.ReflTransGen Site.Idles s s') : s.Idles s' := by
  induction c with
  | refl => exact .refl s
  | tail _ h ih => exact ih.trans h

/-- The inventory is changed. -/
theorem saves (s : Site) {v : Inventory} (named : s.inventory.Named → v.Named) :
    s.Idles { s with inventory := v } :=
  ⟨rfl, rfl, rfl, rfl, rfl, .refl _, .of_same rfl rfl rfl named⟩

/-- Something happens that is no call. -/
theorem logs (s : Site) {h : Happening} (quiet : h.isOfCall = false) :
    s.Idles { s with log := s.log ++ [h] } :=
  ⟨rfl, rfl, rfl, rfl, rfl, .concat quiet _, .of_same rfl rfl rfl id⟩

/-- Room is charged or given back. -/
theorem charges (s : Site) (a : Account) : s.Idles { s with account := a } :=
  ⟨rfl, rfl, rfl, rfl, rfl, .refl _, .of_same rfl rfl rfl id⟩

/-- Bytes are written or removed. -/
theorem writes (s : Site) (d : Disk) : s.Idles { s with disk := d } :=
  ⟨rfl, rfl, rfl, rfl, rfl, .refl _, .of_same rfl rfl rfl id⟩

/-- Other jobs count as warned of. -/
theorem warns (s : Site) (requests : KeySet RequestId) : s.Idles { s with warned := requests } :=
  ⟨rfl, rfl, rfl, rfl, rfl, .refl _, .of_same rfl rfl rfl id⟩

end Site.Idles

/-- A fault may strike, and nothing else happens. -/
theorem Site.Stays.idles (h : s.Stays s') : s.Idles s' := by
  have heq := h.eq
  refine ⟨by rw [heq], by rw [heq], by rw [heq], by rw [heq], by rw [heq], by rw [heq]; exact .refl _, ?_⟩
  refine ⟨fun hs => hs.aside h.aside, fun hs => hs.aside h.aside, fun hn => ?_⟩
  rw [heq]
  exact hn

theorem Act.idles_now (s : Site) : now.Within Site.Idles s := .bind (.get s) fun _ s₁ _ => .pure _ s₁

theorem Act.idles_note {h : Happening} (quiet : h.isOfCall = false) (s : Site) :
    (note h).Within Site.Idles s := by
  rw [Within, leads_note]
  exact .single (.logs s quiet)

/-! ### Calls of the inventory -/

namespace Records

theorem idles_reach (call : StoreCall) (s : Site) : (reach call).Within Site.Idles s :=
  (leads_reach_stays call s).mono (fun _ _ ⟨_, hstays⟩ => .single hstays.idles)
    fun _ _ hstays => .single hstays.idles

theorem idles_strikes (f : Fault) (s : Site) : (strikes f).Within Site.Idles s :=
  (leads_strikes f s).mono (fun _ _ hfalse => hfalse.elim) fun _ _ ⟨hstays, _⟩ => .single hstays.idles

theorem idles_read (call : StoreCall) (g : Inventory → α) (s : Site) :
    (do reach call; return g (← get).inventory : Act α).Within Site.Idles s :=
  (leads_read_stays call g s).mono (fun _ _ ⟨_, hstays⟩ => .single hstays.idles)
    fun _ _ ⟨hstays, _⟩ => .single hstays.idles

theorem idles_look (call : StoreCall) (f : Fault) (g : Inventory → Option α) (s : Site) :
    (do
      reach call
      if ← strikes f then return none
      return g (← get).inventory : Act (Option α)).Within Site.Idles s :=
  (leads_look_stays call f g s).mono (fun _ _ ⟨_, hstays⟩ => .single hstays.idles)
    fun _ _ ⟨hstays, _⟩ => .single hstays.idles

theorem idles_persist (s : Site) : persist.Within Site.Idles s := by
  simp only [persist, Within, leads_bind, leads_get]
  split
  · rw [leads_pure]
  · simp only [leads_bind, leads_set]
    split
    · rw [leads_throw]
      exact .single (.writes s _)
    · rw [leads_pure]
      exact .single (.writes s _)

theorem idles_change {f : Inventory → Inventory} (named : ∀ v : Inventory, v.Named → (f v).Named)
    (s : Site) : (change f).Within Site.Idles s :=
  .bind (.modify (.single (.saves s (named _)))) fun _ s₁ _ => idles_persist s₁

theorem idles_edit (call : StoreCall) {f : Inventory → Inventory}
    (named : ∀ v : Inventory, v.Named → (f v).Named) (s : Site) :
    (do reach call; change f).Within Site.Idles s :=
  .bind (idles_reach call s) fun _ s₁ _ => idles_change named s₁

theorem idles_loadFile (id : FileId) (s : Site) : (loadFile id).Within Site.Idles s :=
  idles_look .loadFile .missFile (·.files.get? id) s

theorem idles_loadJob (r : RequestId) (s : Site) : (loadJob r).Within Site.Idles s :=
  idles_look .loadJob .missJob (·.jobs.get? r) s

theorem idles_saveFile (f : FileRecord) (s : Site) : (saveFile f).Within Site.Idles s :=
  idles_edit .saveFile (fun _ hn => hn.saveFile f) s

theorem idles_saveJob (j : Job) (s : Site) : (saveJob j).Within Site.Idles s :=
  idles_edit .saveJob (fun _ hn => hn.saveJob j) s

theorem idles_deleteFile (id : FileId) (s : Site) : (deleteFile id).Within Site.Idles s := by
  refine .bind (idles_reach _ s) fun _ s₁ _ => .bind (idles_strikes _ s₁) fun struck s₂ _ => ?_
  split
  · exact .pure _ s₂
  · refine .bind (.get s₂) fun _ s₃ _ => ?_
    exact .bind (idles_change (fun _ hn => hn.deleteFile id) s₃) fun _ s₄ _ => .pure _ s₄

theorem idles_findUnlocked (time : Instant) (s : Site) : (findUnlocked time).Within Site.Idles s :=
  idles_read .findUnlocked (·.unlockedBefore time) s

theorem idles_findPending (s : Site) : findPending.Within Site.Idles s :=
  idles_read .findPending (·.pendingFiles) s

theorem idles_findReferrers (id : FileId) (s : Site) : (findReferrers id).Within Site.Idles s :=
  idles_read .findReferrers (·.referrers id) s

theorem idles_findByStatus (status : JobStatus) (s : Site) : (findByStatus status).Within Site.Idles s :=
  idles_read .findByStatus (·.jobsWithStatus status) s

theorem idles_findExpiring (after upTo : Instant) (s : Site) :
    (findExpiring after upTo).Within Site.Idles s :=
  idles_read .findExpiring (·.expiringBetween after upTo) s

theorem idles_findUnexpired (time : Instant) (s : Site) : (findUnexpired time).Within Site.Idles s :=
  idles_read .findUnexpired (·.unexpiredAt time) s

theorem idles_overwriteStatus (r : RequestId) (status : JobStatus) (s : Site) :
    (overwriteStatus r status).Within Site.Idles s := by
  refine .bind (.get s) fun t s₁ _ => ?_
  split
  · exact .forgive (idles_change (fun _ hn => hn.overwriteStatus r status) s₁)
  · exact .pure _ s₁

end Records

/-! ### Room -/

namespace Room

theorem idles_anyLive : ∀ (rs : List RequestId) (s : Site), (anyLive rs).Within Site.Idles s
  | [], s => .pure _ s
  | r :: rest, s => by
    refine .bind (Records.idles_loadJob r s) fun job s₁ _ => ?_
    split
    · split
      · exact .pure _ s₁
      · exact idles_anyLive rest s₁
    · exact idles_anyLive rest s₁

theorem idles_isPinned (id : FileId) (s : Site) : (isPinned id).Within Site.Idles s :=
  .bind (Records.idles_findReferrers id s) fun _ s₁ _ => idles_anyLive _ s₁

theorem idles_eraseBytes (f : FileRecord) (s : Site) : (eraseBytes f).Within Site.Idles s := by
  refine .modify (.single ?_)
  split
  · exact .refl s
  · split
    · exact .writes s _
    · exact .refl s

theorem idles_evictFile (id : FileId) (s : Site) : (evictFile id).Within Site.Idles s := by
  refine .bind (Records.idles_deleteFile id s) fun found s₁ _ => ?_
  split
  · exact .pure _ s₁
  · refine .bind (idles_eraseBytes _ s₁) fun _ s₂ _ => ?_
    refine .bind (.modify (.single (.charges s₂ _))) fun _ s₃ _ => ?_
    refine .bind (idles_now s₃) fun time s₄ _ => .bind (.get s₄) fun t s₅ _ => ?_
    exact .bind (idles_note rfl s₅) fun _ s₆ _ => .pure _ s₆

theorem idles_evictAmong (required : Option UInt64) : ∀ (l : List FileRecord) (done : Reclaim) (s : Site),
    (evictAmong required l done).Within Site.Idles s
  | [], done, s => .pure _ s
  | f :: rest, done, s => by
    have hnext := fun done s => idles_evictAmong required rest done s
    simp only [evictAmong]
    refine .bind (.get s) fun t s₁ _ => ?_
    split
    · exact .pure _ s₁
    refine .bind (.get s₁) fun t s₂ _ => ?_
    split
    · exact hnext done s₂
    refine .bind (idles_isPinned _ s₂) fun pinned s₃ _ => ?_
    split
    · exact hnext done s₃
    refine .bind (idles_evictFile _ s₃) fun kb s₄ _ => ?_
    split
    · exact hnext done s₄
    · exact hnext _ s₄

theorem idles_evict (required : Option UInt64) (s : Site) : (evict required).Within Site.Idles s := by
  refine .bind (idles_now s) fun time s₁ _ => .bind (Records.idles_findUnlocked time s₁) fun l s₂ _ => ?_
  exact .bind (idles_evictAmong required l {} s₂) fun done s₃ _ => .bind (.get s₃) fun t s₄ _ => .pure _ s₄

end Room

/-! ### Notices -/

theorem Act.idles_tell (n : Notice) (s : Site) : (tell n).Within Site.Idles s := by
  refine .bind (idles_note rfl s) fun _ s₁ _ => .bind (.get s₁) fun t s₂ _ => ?_
  have hall : ∀ (l : List (RequestId × JobStatus)) (s : Site),
      (l.forM fun x => Records.overwriteStatus x.1 x.2 : Act PUnit).Within Site.Idles s := by
    intro l
    induction l with
    | nil => exact fun s => .pure _ s
    | cons x rest ih => exact fun s => .bind (Records.idles_overwriteStatus _ _ s) fun _ s₁ _ => ih s₁
  exact hall _ s₂

/-! ### Jobs -/

namespace Jobs

theorem idles_find (r : RequestId) (s : Site) : (find r).Within Site.Idles s := by
  refine .bind (Records.idles_loadJob r s) fun job s₁ _ => ?_
  split
  · exact .pure _ s₁
  · exact .throw _ s₁

theorem idles_apply (r : RequestId) {change : Job → Act (Option Job)} (s : Site)
    (h : ∀ job s, (change job).Within Site.Idles s) : (apply r change).Within Site.Idles s := by
  refine .bind (idles_find r s) fun job s₁ _ => .bind (h job s₁) fun changed s₂ _ => ?_
  split
  · exact .pure _ s₂
  · exact .bind (Records.idles_saveJob _ s₂) fun _ s₃ _ => .pure _ s₃

theorem idles_move (job : Job) (next : JobStatus) (time : Instant) (s : Site) :
    (move job next time).Within Site.Idles s := by
  rw [Within, move]
  cases job.move? next time with
  | ok j => rw [leads_ok]
  | error e => rw [leads_error]

theorem idles_administer (r : RequestId) (next : JobStatus) (s : Site) :
    (administer r next).Within Site.Idles s := by
  refine .bind (idles_now s) fun time s₁ _ => ?_
  refine .bind (idles_apply r s₁ fun job s₂ => ?_) fun changed s₃ _ => ?_
  · exact .bind (idles_move job next time s₂) fun _ s₃ _ => .pure _ s₃
  · split
    · exact .bind (idles_note rfl s₃) fun _ s₄ _ => .pure _ s₄
    · exact .throw _ s₃

theorem idles_fail (r : RequestId) (message : String) (s : Site) :
    (fail r message).Within Site.Idles s := by
  refine .bind (idles_now s) fun time s₁ _ => ?_
  refine .bind (idles_apply r s₁ fun job s₂ => ?_) fun changed s₃ _ => ?_
  · split
    · exact .pure _ s₂
    · exact .bind (idles_move job .error time s₂) fun _ s₃ _ => .pure _ s₃
  · split
    · exact .bind (idles_tell _ s₃) fun _ s₄ _ => .pure _ s₄
    · exact idles_find r s₃

theorem idles_keepUntil (time : Instant) : ∀ (l : List ManifestEntry) (s : Site),
    (keepUntil time l).Within Site.Idles s
  | [], s => .pure _ s
  | e :: rest, s => by
    refine .bind (Records.idles_loadFile e.fileId s) fun found s₁ _ => ?_
    split
    · exact .bind (Records.idles_saveFile _ s₁) fun _ s₂ _ => idles_keepUntil time rest s₂
    · exact idles_keepUntil time rest s₁

theorem idles_promote (r : RequestId) (s : Site) : (promote r).Within Site.Idles s := by
  refine .bind (idles_now s) fun time s₁ _ => .bind (.get s₁) fun t s₂ _ => ?_
  refine .bind (idles_find r s₂) fun job s₃ _ => ?_
  dsimp only
  split
  · exact idles_fail r _ s₃
  · refine .bind (idles_apply r s₃ fun job s₄ => ?_) fun changed s₅ _ => ?_
    · split
      · exact .pure _ s₄
      · refine .bind (idles_keepUntil _ _ s₄) fun _ s₅ _ => ?_
        exact .bind (idles_move job .ready time s₅) fun _ s₆ _ => .pure _ s₆
    · split
      · exact .bind (idles_tell _ s₅) fun _ s₆ _ => .pure _ s₆
      · exact idles_find r s₅

theorem idles_reportFailure (r : RequestId) (message : String) (p : Report) (s : Site) :
    (reportFailure r message p).Within Site.Idles s :=
  .bind (idles_fail r message s) fun _ s₁ _ => .pure _ s₁

theorem idles_package (r : RequestId) (entry : ManifestEntry) (s : Site) :
    (package r entry).Within Site.Idles s := by
  refine .bind (.get s) fun t s₁ _ => ?_
  split
  · exact .throw _ s₁
  next p _ =>
  refine .bind (idles_note rfl s₁) fun _ s₂ _ => ?_
  dsimp only
  cases p.failures.get? entry.fileId with
  | none =>
    split
    · exact .bind (Records.idles_overwriteStatus r _ s₂) fun _ s₃ _ => .pure _ s₃
    · exact .pure _ s₂
  | some e =>
    split
    · exact .bind (Records.idles_overwriteStatus r _ s₂) fun _ s₃ _ => .throw _ s₃
    · exact .throw _ s₂

theorem idles_packageAll (r : RequestId) : ∀ (l : List ManifestEntry) (s : Site),
    (packageAll r l).Within Site.Idles s
  | [], s => .pure _ s
  | e :: rest, s => by
    refine .bind (.attempt (idles_package r e s)) fun answer s₁ _ => ?_
    split
    · exact idles_packageAll r rest s₁
    · exact .pure _ s₁

theorem idles_expireAll (time : Instant) : ∀ (l : List Job) (p : Report) (s : Site),
    (expireAll time l p).Within Site.Idles s
  | [], p, s => .pure _ s
  | job :: rest, p, s => by
    have hnext := fun p s => idles_expireAll time rest p s
    rw [expireAll]
    split
    · exact hnext p s
    refine .bind (idles_apply _ s fun job s₁ => ?_) fun expired s₁ _ => ?_
    · split
      · exact .pure _ s₁
      · exact .bind (idles_move job .expired time s₁) fun _ s₂ _ => .pure _ s₂
    · split
      · exact hnext p s₁
      · exact .bind (idles_tell _ s₁) fun _ s₂ _ => hnext _ s₂

theorem idles_cancelAmong (time : Instant) : ∀ (l : List Job) (s : Site),
    (cancelAmong time l).Within Site.Idles s
  | [], s => .pure _ s
  | job :: rest, s => by
    have hnext := idles_cancelAmong time rest
    rw [cancelAmong]
    split
    · exact hnext s
    refine .bind (idles_move job .cancelled time s) fun moved s₁ _ => ?_
    refine .bind (Records.idles_saveJob _ s₁) fun _ s₂ _ => .bind (idles_tell _ s₂) fun _ s₃ _ => ?_
    exact .bind (hnext s₃) fun _ s₄ _ => .pure _ s₄

theorem idles_cancelAll (s : Site) : cancelAll.Within Site.Idles s :=
  .bind (idles_now s) fun time s₁ _ =>
    .bind (Records.idles_findUnexpired time s₁) fun l s₂ _ => idles_cancelAmong time l s₂

end Jobs

/-! ### Warnings -/

namespace Warnings

theorem idles_warnAll : ∀ (l : List Job) (s : Site), (warnAll l).Within Site.Idles s
  | [], s => .pure _ s
  | job :: rest, s => by
    have hnext := idles_warnAll rest
    rw [warnAll]
    split
    · exact hnext s
    refine .bind (.get s) fun t s₁ _ => ?_
    split
    · exact hnext s₁
    refine .bind (.modify (.single (.warns s₁ _))) fun _ s₂ _ => .bind (idles_tell _ s₂) fun _ s₃ _ => ?_
    exact .bind (hnext s₃) fun _ s₄ _ => .pure _ s₄

theorem idles_notify (windowMs : Int) (s : Site) : (notify windowMs).Within Site.Idles s := by
  refine .bind (.bind (idles_now s) fun time s₁ _ => ?_) fun jobs s₁ _ => ?_
  · exact .bind (Records.idles_findExpiring _ _ s₁) fun l s₂ _ => .pure _ s₂
  · exact .bind (.modify (.single (.warns s₁ _))) fun _ s₂ _ => idles_warnAll jobs s₂

end Warnings

end Depot
