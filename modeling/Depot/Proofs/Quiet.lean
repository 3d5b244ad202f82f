import Depot.Proofs.Jobs

/-!
# Where no call is refused

In a quiet depot every call of the inventory does what it says. So an operation can be followed from call to
call, and it is said exactly what comes of it: the lemmas of this module rewrite where an operation leads
into what holds afterwards, or name the few ways in which it may end. Only evictions are not followed to the
end; they are the courses of `Room`.

Nothing is asked of the books of the depot here, only that records and jobs are kept under their own names.

## Main statements

* `Transfers.leads_queue_of_quiet` — a transfer is queued, or there is no room and its record is unlocked.
* `Transfers.leads_ensure_of_quiet` — the four ways in which a request for a file is answered.
* `Jobs.leads_fail_of_quiet`, `Jobs.leads_promote_of_quiet` — how a job ends its preparation.
-/

namespace Depot

open Act Time

variable {α : Type} {s s' : Site} {E : Failure → Site → Prop}

/-- A secluded depot where no call is refused. -/
structure Site.Quiet (s : Site) : Prop extends s.Secluded where
  faultless : s.Faultless

/-- A depot is as quiet as another with the same surroundings. -/
theorem Site.Quiet.of_same (h : s.Quiet) (storePath : s'.storePath = s.storePath)
    (faults : s'.faults = s.faults) (reactions : s'.reactions = s.reactions) : s'.Quiet :=
  ⟨h.toSecluded.of_same storePath faults reactions, fun fault => by rw [faults, h.faultless]⟩

/-- What is refused nowhere is not refused. -/
theorem Site.Quiet.not_refused (h : s.Quiet) {e : Failure} : ¬s.Refused e := fun hr => hr.2 h.faultless

/-! ### The inventory -/

namespace Records

theorem leads_read_of_quiet (h : s.Quiet) (call : StoreCall) (g : Inventory → α)
    {Q : α → Site → Prop} :
    Leads (do reach call; return g (← get).inventory) E Q s ↔ Q (g s.inventory) s := by
  rw [leads_bind, leads_reach_of_quiet (h.faultless _)]
  simp only [leads_bind, leads_get, leads_pure]

theorem leads_look_of_quiet (h : s.Quiet) (call : StoreCall) (f : Fault) (g : Inventory → Option α)
    {Q : Option α → Site → Prop} :
    Leads
      (do
        reach call
        if ← strikes f then return none
        return g (← get).inventory) E Q s ↔ Q (g s.inventory) s := by
  rw [leads_bind, leads_reach_of_quiet (h.faultless _), leads_bind,
    leads_strikes_of_quiet (h.faultless f)]
  simp only [Bool.false_eq_true, if_false, leads_bind, leads_get, leads_pure]

theorem leads_edit_of_quiet (h : s.Quiet) (call : StoreCall) (f : Inventory → Inventory)
    {Q : Unit → Site → Prop} :
    Leads (do reach call; change f) E Q s ↔ Q () { s with inventory := f s.inventory } := by
  rw [leads_bind, leads_reach_of_quiet (h.faultless _), leads_change h.toSecluded]

theorem leads_loadFile_of_quiet (h : s.Quiet) (id : FileId) {Q : Option FileRecord → Site → Prop} :
    Leads (loadFile id) E Q s ↔ Q (s.inventory.files.get? id) s :=
  leads_look_of_quiet h .loadFile .missFile (·.files.get? id)

theorem leads_loadJob_of_quiet (h : s.Quiet) (r : RequestId) {Q : Option Job → Site → Prop} :
    Leads (loadJob r) E Q s ↔ Q (s.inventory.jobs.get? r) s :=
  leads_look_of_quiet h .loadJob .missJob (·.jobs.get? r)

theorem leads_saveFile_of_quiet (h : s.Quiet) (f : FileRecord) {Q : Unit → Site → Prop} :
    Leads (saveFile f) E Q s ↔ Q () { s with inventory := s.inventory.saveFile f } :=
  leads_edit_of_quiet h .saveFile (·.saveFile f)

theorem leads_saveJob_of_quiet (h : s.Quiet) (j : Job) {Q : Unit → Site → Prop} :
    Leads (saveJob j) E Q s ↔ Q () { s with inventory := s.inventory.saveJob j } :=
  leads_edit_of_quiet h .saveJob (·.saveJob j)

theorem leads_findByStatus_of_quiet (h : s.Quiet) (status : JobStatus) {Q : List Job → Site → Prop} :
    Leads (findByStatus status) E Q s ↔ Q (s.inventory.jobsWithStatus status) s :=
  leads_read_of_quiet h .findByStatus (·.jobsWithStatus status)

theorem leads_findUnlocked_of_quiet (h : s.Quiet) (time : Instant)
    {Q : List FileRecord → Site → Prop} :
    Leads (findUnlocked time) E Q s ↔ Q (s.inventory.unlockedBefore time) s :=
  leads_read_of_quiet h .findUnlocked (·.unlockedBefore time)

theorem leads_findReferrers_of_quiet (h : s.Quiet) (id : FileId) {Q : List RequestId → Site → Prop} :
    Leads (findReferrers id) E Q s ↔ Q (s.inventory.referrers id) s :=
  leads_read_of_quiet h .findReferrers (·.referrers id)

theorem leads_deleteFile_of_quiet (h : s.Quiet) (id : FileId) {Q : Option FileRecord → Site → Prop} :
    Leads (deleteFile id) E Q s ↔
      Q (s.inventory.files.get? id) { s with inventory := s.inventory.deleteFile id } := by
  rw [deleteFile, leads_bind, leads_reach_of_quiet (h.faultless _), leads_bind,
    leads_strikes_of_quiet (h.faultless _)]
  simp only [Bool.false_eq_true, if_false, leads_bind, leads_get, leads_pure]
  rw [leads_change h.toSecluded]

theorem leads_addReference_of_quiet (h : s.Quiet) (id : FileId) (r : RequestId)
    {Q : Unit → Site → Prop} :
    Leads (addReference id r) E Q s ↔ Q () { s with inventory := s.inventory.addReference id r } := by
  rw [addReference, leads_bind, leads_reach_of_quiet (h.faultless _)]
  simp only [leads_bind, leads_get]
  cases hr : s.inventory.refers id r with
  | false => rw [Bool.not_false, if_pos rfl, leads_change h.toSecluded]
  | true => rw [Bool.not_true, if_neg Bool.false_ne_true, leads_pure,
      Inventory.addReference_of_refers hr]

theorem leads_removeReference_of_quiet (h : s.Quiet) {id : FileId} {r : RequestId}
    (refers : s.inventory.refers id r = true) {Q : Unit → Site → Prop} :
    Leads (removeReference id r) E Q s ↔
      Q () { s with inventory := s.inventory.removeReference id r } := by
  rw [removeReference, leads_bind, leads_reach_of_quiet (h.faultless _)]
  simp only [leads_bind, leads_get]
  rw [refers, if_pos rfl, leads_change h.toSecluded]

end Records

/-! ### Room -/

namespace Evictions

theorem quiet (h : Evictions s s') (hs : s.Quiet) : s'.Quiet :=
  ⟨h.secluded hs.toSecluded, h.course.faultless hs.faultless⟩

theorem named (h : Evictions s s') (hn : s.inventory.Named) : s'.inventory.Named := by
  induction h with
  | refl => exact hn
  | tail _ e ih =>
    cases e with
    | aside a => cases a; exact ih
    | evicted => exact ih.deleteFile _

/-- A file that is evicted leaves its record and its references, and others keep both. -/
theorem kept_or_dropped (h : Evictions s s') (id : FileId) :
    (s'.inventory.files.get? id = s.inventory.files.get? id ∧
      s'.inventory.references.get? id = s.inventory.references.get? id) ∨
    s'.inventory.files.get? id = none ∧ s'.inventory.references.get? id = none := by
  induction h with
  | refl => exact .inl ⟨rfl, rfl⟩
  | tail _ e ih =>
    cases e with
    | aside a => cases a; exact ih
    | @evicted f disk =>
      by_cases hid : id = f.fileId
      · subst hid
        exact .inr ⟨(Inventory.get?_deleteFile ..).trans (if_pos rfl),
          (Table.get?_erase ..).trans (if_pos rfl)⟩
      · refine ih.imp (fun hkept => ?_) fun hgone => ?_
        · exact ⟨(Inventory.get?_deleteFile_of_ne _ hid).trans hkept.1,
            ((Table.get?_erase ..).trans (if_neg hid)).trans hkept.2⟩
        · exact ⟨(Inventory.get?_deleteFile_of_ne _ hid).trans hgone.1,
            ((Table.get?_erase ..).trans (if_neg hid)).trans hgone.2⟩

/-- A file without a record keeps its references. -/
theorem references_of_absent (h : Evictions s s') {id : FileId}
    (absent : s.inventory.files.get? id = none) :
    s'.inventory.references.get? id = s.inventory.references.get? id := by
  induction h with
  | refl => rfl
  | tail ht e ih =>
    rw [← ih]
    cases e with
    | aside a => cases a; rfl
    | @evicted f disk kept =>
      have hne : id ≠ f.fileId := by
        rintro rfl
        rw [get?_eq_none ht absent] at kept
        cases kept
      exact (Table.get?_erase ..).trans (if_neg hne)

end Evictions

namespace Room

theorem leads_evict_of_quiet (h : s.Quiet) (hn : s.inventory.Named) (required : Option UInt64) :
    Leads (evict required) (fun _ _ => False)
      (fun done s' => Evictions s s' ∧
        done.satisfied = (required.isNone || s'.hasRoom required)) s :=
  (leads_evict h.toSecluded hn required).mono (fun _ _ hr => h.not_refused hr.1) fun _ _ hdone => hdone

/-- Evictions are all that happens before room is reserved, or is not. -/
theorem leads_reserve_of_quiet (h : s.Quiet) (hn : s.inventory.Named) (id : FileId) (kb : UInt64) :
    Leads (reserve id kb)
      (fun e s' => Evictions s s' ∧ ∃ kb room, e = .capacityExceeded kb room)
      (fun _ s' => ∃ t account, Evictions s t ∧ s' = { t with account := account }) s := by
  rw [reserve, leads_bind, leads_get]
  refine leads_ite.2 ⟨fun _ => ?_, fun _ => ?_⟩
  · rw [leads_pure]
    exact ⟨s, s.account, .refl, rfl⟩
  rw [leads_bind, leads_get]
  refine leads_ite.2 ⟨fun _ => ?_, fun _ => ?_⟩
  · rw [leads_bind]
    refine (leads_evict_of_quiet h hn (some kb)).mono (fun _ _ hfalse => hfalse.elim) ?_
    rintro done t ⟨ht, -⟩
    refine leads_ite.2 ⟨fun _ => ?_, fun _ => ?_⟩
    · simp only [leads_bind, leads_get, leads_throw]
      exact ⟨ht, kb, _, rfl⟩
    · rw [leads_modify]
      exact ⟨t, _, ht, rfl⟩
  · rw [leads_modify]
    exact ⟨s, _, .refl, rfl⟩

end Room

/-! ### Files asked for -/

/-- A request refers to a file. -/
def Site.attach (s : Site) (id : FileId) (r : RequestId) : Site :=
  { s with inventory := s.inventory.addReference id r }

namespace Transfers

/-- A transfer was queued, after evictions. -/
inductive Dispatched (f : FileRecord) (s : Site) : Site → Prop
  | intro {t : Site} (account : Account) (evictions : Evictions s t) :
      Dispatched f s
        { t with
          inventory := t.inventory.saveFile f
          account := account
          inFlight := t.inFlight.add f.fileId
          tasks := t.tasks ++ [.transfer ⟨f, .resting t.clock.elapsed⟩]
          log := t.log ++ [.queued f] }

/-- There was no room for a transfer, even after evictions; a record that is still kept may be evicted from
then on. -/
inductive TurnedAway (f : FileRecord) (s : Site) : Site → Prop
  | left {t : Site} (evictions : Evictions s t)
      (unlocked : f.unlockAt = none → t.inventory.files.get? f.fileId = none) : TurnedAway f s t
  | unlocked {t : Site} (evictions : Evictions s t) (locked : f.unlockAt = none)
      (kept : t.inventory.files.contains f.fileId = true) :
      TurnedAway f s { t with inventory := t.inventory.saveFile { f with unlockAt := some t.clock.now } }

/-- **Queueing a transfer** of a file that was not on its way. -/
theorem leads_queue_of_quiet (h : s.Quiet) (hn : s.inventory.Named) {f : FileRecord}
    (grounded : s.inFlight.contains f.fileId = false) :
    Leads (queue f)
      (fun e s' => (∃ kb room, e = .capacityExceeded kb room) ∧ TurnedAway f s s')
      (fun _ s' => Dispatched f s s') { s with inFlight := s.inFlight.add f.fileId } := by
  have hflying : ({ s with inFlight := s.inFlight.add f.fileId } : Site).Quiet := h.of_same rfl rfl rfl
  simp only [queue, leads_bind, leads_attempt]
  refine (Room.leads_reserve_of_quiet hflying hn f.fileId f.estimatedKb).mono ?_ ?_
  · rintro e s₁ ⟨hev, he⟩
    have h₁ := hev.quiet hflying
    obtain ⟨t, ht, rfl⟩ := hev.grounded
    have hlands : (s.inFlight.add f.fileId).erase f.fileId = t.inFlight := by
      rw [KeySet.erase_add grounded, ← ht.frame.inFlight]
    simp only [unlock, leaveFlight, leads_modify, leads_throw]
    by_cases hlocked : f.unlockAt = none
    · rw [if_pos hlocked, leads_bind, Records.leads_loadFile_of_quiet h₁]
      refine leads_ite.2 ⟨fun hkept => ?_, fun hgone => ?_⟩
      · simp only [leads_bind, leads_now]
        rw [Records.leads_saveFile_of_quiet h₁, hlands]
        exact ⟨he, .unlocked ht hlocked hkept⟩
      · rw [leads_pure, hlands]
        exact ⟨he, .left ht fun _ => Table.contains_eq_false.1 hgone⟩
    · rw [if_neg hlocked, leads_pure, hlands]
      exact ⟨he, .left ht fun hnone => absurd hnone hlocked⟩
  · rintro _ s₁ ⟨t', account, hev, rfl⟩
    have h₁ : ({ t' with account := account } : Site).Quiet := (hev.quiet hflying).of_same rfl rfl rfl
    obtain ⟨t, ht, rfl⟩ := hev.grounded
    rw [Records.leads_saveFile_of_quiet h₁]
    simp only [leads_note, leads_get, leads_join]
    rw [← ht.frame.inFlight]
    exact .intro account ht

theorem Dispatched.quiet {f : FileRecord} (c : Dispatched f s s') (h : s.Quiet) : s'.Quiet := by
  cases c with
  | intro account evictions => exact (evictions.quiet h).of_same rfl rfl rfl

theorem Dispatched.named {f : FileRecord} (c : Dispatched f s s') (hn : s.inventory.Named) :
    s'.inventory.Named := by
  cases c with
  | intro account evictions => exact (evictions.named hn).saveFile f

theorem TurnedAway.quiet {f : FileRecord} (c : TurnedAway f s s') (h : s.Quiet) : s'.Quiet := by
  cases c with
  | left evictions => exact evictions.quiet h
  | unlocked evictions => exact (evictions.quiet h).of_same rfl rfl rfl

theorem TurnedAway.named {f : FileRecord} (c : TurnedAway f s s') (hn : s.inventory.Named) :
    s'.inventory.Named := by
  cases c with
  | left evictions => exact evictions.named hn
  | unlocked evictions => exact (evictions.named hn).saveFile _

/-- **What comes of asking for a file** where no call is refused. -/
inductive Reply (r : RequestId) (entry : ManifestEntry) (s : Site) :
    Except Failure FileStatus → Site → Prop
  /-- It is on its way. -/
  | flying (flying : s.inFlight.contains entry.fileId = true) :
      Reply r entry s (.ok .pending) (s.attach entry.fileId r)
  /-- It is there, or has failed. -/
  | settled {status : FileStatus} (grounded : s.inFlight.contains entry.fileId = false)
      (need : needOf entry s.settings.defaultEstimateKb (s.inventory.files.get? entry.fileId) =
        .settled status) :
      Reply r entry s (.ok status) (s.attach entry.fileId r)
  /-- Its transfer is queued. -/
  | dispatched {f : FileRecord} {isNew : Bool} {s' : Site}
      (grounded : s.inFlight.contains entry.fileId = false)
      (need : needOf entry s.settings.defaultEstimateKb (s.inventory.files.get? entry.fileId) =
        .transfer f isNew)
      (sent : Dispatched f (s.attach entry.fileId r) s') : Reply r entry s (.ok .pending) s'
  /-- There is no room for it; a request does not refer to a file that was unknown. -/
  | turnedAway {f : FileRecord} {isNew : Bool} {t : Site} (kb : UInt64) (room : Int)
      (grounded : s.inFlight.contains entry.fileId = false)
      (need : needOf entry s.settings.defaultEstimateKb (s.inventory.files.get? entry.fileId) =
        .transfer f isNew)
      (left : TurnedAway f (s.attach entry.fileId r) t) :
      Reply r entry s (.error (.capacityExceeded kb room))
        (if isNew then { t with inventory := t.inventory.removeReference entry.fileId r } else t)

theorem Reply.quiet {r : RequestId} {entry : ManifestEntry} {answer : Except Failure FileStatus}
    (c : Reply r entry s answer s') (h : s.Quiet) : s'.Quiet := by
  have hattached : (s.attach entry.fileId r).Quiet := h.of_same rfl rfl rfl
  cases c with
  | flying | settled => exact hattached
  | dispatched _ _ sent => exact sent.quiet hattached
  | turnedAway _ _ _ _ left =>
    split
    · exact (left.quiet hattached).of_same rfl rfl rfl
    · exact left.quiet hattached

theorem Reply.named {r : RequestId} {entry : ManifestEntry} {answer : Except Failure FileStatus}
    (c : Reply r entry s answer s') (hn : s.inventory.Named) : s'.inventory.Named := by
  have hattached : (s.attach entry.fileId r).inventory.Named := ⟨hn.files, hn.jobs⟩
  cases c with
  | flying | settled => exact hattached
  | dispatched _ _ sent => exact sent.named hattached
  | turnedAway _ _ _ _ left =>
    split
    · exact (left.named hattached).removeReference _ _
    · exact left.named hattached

/-- A request that was turned away with an unknown file still refers to it. -/
theorem TurnedAway.refers {f : FileRecord} {id : FileId} {r : RequestId}
    (h : TurnedAway f (s.attach id r) s') (absent : s.inventory.files.get? id = none) :
    s'.inventory.refers id r = true := by
  have hrefers : (s.attach id r).inventory.refers id r = true :=
    (Inventory.refers_addReference ..).2 (.inl ⟨rfl, rfl⟩)
  have hsame : ∀ {t}, Evictions (s.attach id r) t → t.inventory.refers id r = true := by
    intro t ht
    rw [Inventory.refers, ht.references_of_absent absent]
    exact hrefers
  cases h with
  | left evictions => exact hsame evictions
  | unlocked evictions =>
    have hrefers := hsame evictions
    exact hrefers

/-- **Asking for a file.** -/
theorem leads_ensure_of_quiet (h : s.Quiet) (hn : s.inventory.Named) (r : RequestId)
    {entry : ManifestEntry} (retrievable : entry.kind.isCatalogue = false) :
    Leads (ensure r entry) (fun e s' => Reply r entry s (.error e) s')
      (fun status s' => Reply r entry s (.ok status) s') s := by
  have hattached : ({ s with inventory := s.inventory.addReference entry.fileId r } : Site).Quiet :=
    h.of_same rfl rfl rfl
  simp only [ensure, retrievable, Bool.false_eq_true, if_false, leads_bind]
  rw [Records.leads_addReference_of_quiet h]
  simp only [leads_get]
  refine leads_ite.2 ⟨fun hflying => ?_, fun hgrounded => ?_⟩
  · rw [leads_pure]
    exact .flying hflying
  rw [leads_bind, Records.leads_loadFile_of_quiet hattached]
  simp only [leads_bind, leads_get]
  cases hneed : needOf entry s.settings.defaultEstimateKb
    ((s.inventory.addReference entry.fileId r).files.get? entry.fileId) with
  | settled status =>
    rw [leads_pure]
    exact .settled hgrounded hneed
  | transfer f isNew =>
    obtain ⟨hid, -, hnew⟩ := wants_of_needOf hn hneed
    have hgrounded' : s.inFlight.contains f.fileId = false := hid ▸ hgrounded
    simp only [enterFlight, leads_bind, leads_modify, leads_attempt]
    refine (leads_queue_of_quiet hattached ⟨hn.files, hn.jobs⟩ hgrounded').mono ?_ ?_
    · rintro e t ⟨⟨kb, room, rfl⟩, hleft⟩
      cases isNew with
      | false =>
        simp only [Bool.false_eq_true, if_false, leads_throw]
        exact .turnedAway kb room hgrounded hneed hleft
      | true =>
        simp only [if_true, leads_bind, leads_throw]
        rw [hid, Records.leads_removeReference_of_quiet (hleft.quiet hattached)
          (hleft.refers (hnew rfl))]
        exact .turnedAway kb room hgrounded hneed hleft
    · intro _ t hsent
      rw [leads_pure]
      exact .dispatched hgrounded hneed hsent

end Transfers

/-! ### Unlock times -/

/-- Records get other unlock times, and nothing else is changed. -/
structure Inventory.Relocks (v v' : Inventory) : Prop where
  files : ∀ id, v'.files.get? id = v.files.get? id ∨
    ∃ f u, v.files.get? id = some f ∧ v'.files.get? id = some { f with unlockAt := some u }
  references : v'.references = v.references
  jobs : v'.jobs = v.jobs

namespace Inventory.Relocks

variable {v v' v'' : Inventory}

theorem refl (v : Inventory) : v.Relocks v := ⟨fun _ => .inl rfl, rfl, rfl⟩

theorem trans (h : v.Relocks v') (h' : v'.Relocks v'') : v.Relocks v'' := by
  refine ⟨fun id => ?_, h'.references.trans h.references, h'.jobs.trans h.jobs⟩
  rcases h'.files id with heq' | ⟨g, u', hg, hg'⟩
  · rw [heq']
    exact h.files id
  · rcases h.files id with heq | ⟨f, u, hf, hf'⟩
    · exact .inr ⟨g, u', heq.symm.trans hg, hg'⟩
    · cases hf'.symm.trans hg
      exact .inr ⟨f, u', hf, hg'⟩

theorem extendUnlock {f : FileRecord} (time : Instant) (kept : v.files.get? f.fileId = some f) :
    v.Relocks (v.saveFile (f.extendUnlock time)) := by
  refine ⟨fun id => ?_, rfl, rfl⟩
  by_cases hid : id = f.fileId
  · subst hid
    exact .inr ⟨f, _, kept, Inventory.get?_saveFile_self ..⟩
  · exact .inl (Inventory.get?_saveFile_of_ne _ hid)

theorem named (h : v.Relocks v') (hn : v.Named) : v'.Named := by
  refine ⟨fun id g hg => ?_, by rw [h.jobs]; exact hn.jobs⟩
  rcases h.files id with heq | ⟨f, u, hf, hg'⟩
  · exact hn.files id g (heq ▸ hg)
  · cases hg'.symm.trans hg
    exact hn.files id f hf

end Inventory.Relocks

/-! ### Jobs -/

namespace Jobs

theorem leads_find_of_quiet (h : s.Quiet) {r : RequestId} {j : Job}
    (kept : s.inventory.jobs.get? r = some j) {Q : Job → Site → Prop} : Leads (find r) E Q s ↔ Q j s := by
  rw [find, leads_bind, Records.leads_loadJob_of_quiet h, kept, leads_pure]

theorem leads_find_of_unknown (h : s.Quiet) {r : RequestId} (unknown : s.inventory.jobs.get? r = none)
    {Q : Job → Site → Prop} : Leads (find r) E Q s ↔ E (.jobNotFound r.text) s := by
  rw [find, leads_bind, Records.leads_loadJob_of_quiet h, unknown, leads_throw]

/-- **How a job ends its preparation**, if it is still being prepared. -/
inductive Concludes (r : RequestId) (s : Site) : Job → Site → Prop
  | stays {j : Job} (kept : s.inventory.jobs.get? r = some j) (settled : j.status ≠ .preparing) :
      Concludes r s j s
  | leaves {j j' : Job} {v : Inventory} (n : Notice) (kept : s.inventory.jobs.get? r = some j)
      (preparing : j.status = .preparing) (relocks : s.inventory.Relocks v)
      (id : j'.requestId = r) (ended : j'.status = .ready ∨ j'.status = .error)
      (told : n.status? = some j'.status) :
      Concludes r s j' { s with inventory := v.saveJob j', log := s.log ++ [.told n] }

/-- A job that is written and told of concludes its preparation. -/
theorem leads_saveJob_tell_of_quiet (h : s.Quiet) (j : Job) (n : Notice) {Q : Unit → Site → Prop} :
    Leads (Records.saveJob j) E (fun _ => Leads (tell n) E Q) s ↔
      Q () { s with inventory := s.inventory.saveJob j, log := s.log ++ [.told n] } := by
  have hsaved : ({ s with inventory := s.inventory.saveJob j } : Site).Secluded :=
    h.toSecluded.of_same rfl rfl rfl
  rw [Records.leads_saveJob_of_quiet h, leads_tell hsaved]

/-- A job that is being prepared ends in an error. -/
theorem leads_fail_of_quiet (h : s.Quiet) (hn : s.inventory.Named) (r : RequestId) (message : String) :
    Leads (fail r message) (fun _ s' => s.inventory.jobs.get? r = none ∧ s' = s)
      (fun j s' => Concludes r s j s') s := by
  simp only [fail, apply, leads_bind, leads_now]
  cases hj : s.inventory.jobs.get? r with
  | none =>
    rw [leads_find_of_unknown h hj]
    exact ⟨rfl, rfl⟩
  | some j =>
    have hid : j.requestId = r := hn.jobs r j hj
    rw [leads_find_of_quiet h hj]
    split
    · next hstatus =>
      rw [leads_pure, leads_pure, leads_find_of_quiet h hj]
      exact .stays hj hstatus
    · next hstatus =>
      have hpreparing : j.status = .preparing := by simpa using hstatus
      simp only [leads_bind, leads_pure]
      refine leads_move.2 ⟨fun _ => ?_, fun hnot => by rw [hpreparing] at hnot; cases hnot⟩
      refine (leads_saveJob_tell_of_quiet h _ _).2 ?_
      exact .leaves _ hj hpreparing (.refl _) hid (.inr rfl) rfl

/-- Files are kept at least until a time. -/
theorem leads_keepUntil_of_quiet (time : Instant) : ∀ (l : List ManifestEntry) {s : Site}, s.Quiet →
    s.inventory.Named → Leads (keepUntil time l) (fun _ _ => False)
      (fun _ s' => ∃ v, s.inventory.Relocks v ∧ s' = { s with inventory := v }) s
  | [], s, h, hn => by
    rw [keepUntil, leads_pure]
    exact ⟨_, .refl _, rfl⟩
  | e :: rest, s, h, hn => by
    simp only [keepUntil, leads_bind]
    rw [Records.leads_loadFile_of_quiet h]
    cases hf : s.inventory.files.get? e.fileId with
    | none => exact leads_keepUntil_of_quiet time rest h hn
    | some f =>
      have hid : f.fileId = e.fileId := hn.files _ f hf
      have hrelocks : s.inventory.Relocks (s.inventory.saveFile (f.extendUnlock time)) :=
        .extendUnlock time (hid ▸ hf)
      simp only [leads_bind]
      rw [Records.leads_saveFile_of_quiet h]
      have hsaved : ({ s with inventory := s.inventory.saveFile (f.extendUnlock time) } : Site).Quiet :=
        h.of_same rfl rfl rfl
      refine (leads_keepUntil_of_quiet time rest hsaved (hrelocks.named hn)).mono
        (fun _ _ hfalse => hfalse) ?_
      rintro _ s' ⟨v, hv, rfl⟩
      exact ⟨v, hrelocks.trans hv, rfl⟩

/-- A job that is being prepared becomes ready, or ends in an error. -/
theorem leads_promote_of_quiet (h : s.Quiet) (hn : s.inventory.Named) (r : RequestId) :
    Leads (promote r) (fun _ s' => s.inventory.jobs.get? r = none ∧ s' = s)
      (fun j s' => Concludes r s j s') s := by
  simp only [promote, leads_bind, leads_now, leads_get]
  cases hj : s.inventory.jobs.get? r with
  | none =>
    rw [leads_find_of_unknown h hj]
    exact ⟨rfl, rfl⟩
  | some j =>
    have hid : j.requestId = r := hn.jobs r j hj
    rw [leads_find_of_quiet h hj]
    split
    · have hfail := leads_fail_of_quiet h hn r
      rw [hj] at hfail
      exact hfail _
    next expiry _ =>
    simp only [apply, leads_bind]
    rw [leads_find_of_quiet h hj]
    split
    · next hstatus =>
      rw [leads_pure, leads_pure, leads_find_of_quiet h hj]
      exact .stays hj hstatus
    · next hstatus =>
      have hpreparing : j.status = .preparing := by simpa using hstatus
      simp only [leads_bind, leads_pure]
      refine (leads_keepUntil_of_quiet expiry j.retrievable h hn).mono
        (fun _ _ hfalse => hfalse.elim) ?_
      rintro _ s' ⟨v, hv, rfl⟩
      have hkept : ({ s with inventory := v } : Site).Quiet := h.of_same rfl rfl rfl
      refine leads_move.2 ⟨fun _ => ?_, fun hnot => by rw [hpreparing] at hnot; cases hnot⟩
      refine (leads_saveJob_tell_of_quiet hkept _ _).2 ?_
      exact .leaves _ hj hpreparing hv hid (.inl rfl) rfl

end Jobs

end Depot
