import Depot.Proofs.Displacement

/-!
# What a request for a file comes to

Where no call is refused and records are kept under their own names, everything that comes of asking for a file
can be said in advance: the answer and the site afterwards are one function of the site, the request and the
entry (`Site.ask`). A file that is on its way, is there or has failed is only referred to. For any other, room is
made first; then its transfer is queued, or it is turned away.

Where a file was turned away the depot is full for it: no file may be evicted any more. So whoever asks for it next
is turned away at once, with the same account of the room that is left.

## Main statements

* `Transfers.leads_ensure_ask` — what comes of asking for a file.
* `Site.full_makeRoom` — where room was refused the depot is full.
* `Site.Full.ask` — whoever finds it full is turned away.
-/

namespace Depot

open Act Time Transfers

variable {s s' : Site} {E : Failure → Site → Prop}

/-! ### Making room -/

/-- The site when room has been made for a file, if that is needed. -/
def Site.makeRoom (s : Site) (f : FileRecord) : Site :=
  if s.account.isReserved f.fileId then s else s.shed (some f.estimatedKb)

/-- The account when a file has been charged; it keeps a reservation that it has. -/
def Account.hold (a : Account) (f : FileRecord) : Account :=
  if a.isReserved f.fileId then a else a.reserve f.fileId f.estimatedKb

/-- Records that are listed as they are kept are dismissed by their names. -/
theorem Site.dismissAll_of_lists {l : List FileRecord} (hl : s.Lists l) :
    s.dismissAll (l.map FileRecord.fileId) = s.letGoAll l := by
  induction l generalizing s with
  | nil => rfl
  | cons f rest ih =>
    rw [List.map_cons, dismissAll_cons, letGoAll_cons, dismiss_of_kept (hl.kept f (.head _))]
    exact ih (hl.deleteFile rfl rfl)

theorem Site.dismissAll_displaced (hn : s.inventory.Named) (f : FileRecord) :
    s.dismissAll (s.displaced f) = s.makeRoom f := by
  rw [makeRoom]
  cases hfree : s.account.isReserved f.fileId with
  | true => rw [displaced, hfree, if_pos rfl, if_pos rfl, dismissAll_nil]
  | false =>
    rw [displaced_of_named hn hfree, if_neg Bool.false_ne_true]
    exact dismissAll_of_lists (hn.lists_take_evictable _)

/-- Where records are kept under their own names a file is given room that has a reservation, or finds enough
room once it has been made. -/
theorem Site.grants_of_named (hn : s.inventory.Named) (f : FileRecord) :
    s.grants f = (s.account.isReserved f.fileId || (s.makeRoom f).hasRoom (some f.estimatedKb)) := by
  rw [grants, dismissAll_displaced hn]

/-- To make room evicts files, and does nothing else. -/
theorem Site.makeRoom_eq_letGoAll (s : Site) (f : FileRecord) :
    ∃ l, List.Sublist l s.evictable ∧ s.makeRoom f = s.letGoAll l := by
  unfold makeRoom
  split
  · exact ⟨[], List.nil_sublist _, rfl⟩
  · exact ⟨_, List.take_sublist .., rfl⟩

theorem Site.makeRoom_eq (s : Site) (f : FileRecord) :
    s.makeRoom f =
      { s with
        inventory := (s.makeRoom f).inventory, disk := (s.makeRoom f).disk
        account := (s.makeRoom f).account, log := (s.makeRoom f).log } := by
  obtain ⟨l, -, hl⟩ := s.makeRoom_eq_letGoAll f
  rw [hl]
  exact letGoAll_eq ..

@[simp] theorem Site.isReserved_makeRoom (s : Site) (f : FileRecord) (id : FileId) :
    (s.makeRoom f).account.isReserved id = s.account.isReserved id := by
  obtain ⟨l, -, hl⟩ := s.makeRoom_eq_letGoAll f
  rw [hl, Account.isReserved, Account.isReserved, reservations_letGoAll]

/-- What is not evictable keeps its record and its references. -/
theorem Site.kept_makeRoom (s : Site) (f : FileRecord) {id : FileId}
    (stays : ∀ g ∈ s.evictable, g.fileId ≠ id) :
    (s.makeRoom f).inventory.files.get? id = s.inventory.files.get? id ∧
      (s.makeRoom f).inventory.references.get? id = s.inventory.references.get? id := by
  obtain ⟨l, hsub, hl⟩ := s.makeRoom_eq_letGoAll f
  have hnot : id ∉ l.map FileRecord.fileId := by
    intro hid
    obtain ⟨g, hg, hgid⟩ := List.mem_map.1 hid
    exact stays g (hsub.subset hg) hgid
  rw [hl, files_letGoAll, references_letGoAll, if_neg hnot, if_neg hnot]
  exact ⟨rfl, rfl⟩

theorem Site.Quiet.makeRoom (h : s.Quiet) (f : FileRecord) : (s.makeRoom f).Quiet := by
  rw [Site.makeRoom_eq]
  exact h.of_same rfl rfl rfl

theorem Inventory.Named.letGoAll (hn : s.inventory.Named) (l : List FileRecord) :
    (s.letGoAll l).inventory.Named := by
  induction l generalizing s with
  | nil => exact hn
  | cons f l ih => exact ih (s := s.letGo f) (hn.deleteFile _)

theorem Inventory.Named.makeRoom (hn : s.inventory.Named) (f : FileRecord) :
    (s.makeRoom f).inventory.Named := by
  obtain ⟨l, -, hl⟩ := s.makeRoom_eq_letGoAll f
  rw [hl]
  exact hn.letGoAll l

namespace Room

/-- **Where a reservation leads**, whether the file had one or not. -/
theorem leads_reserve_makeRoom (h : s.Quiet) (hn : s.inventory.Named) (f : FileRecord)
    {Q : Unit → Site → Prop} :
    Leads (reserve f.fileId f.estimatedKb) E Q s ↔
      (s.grants f = true → Q () { s.makeRoom f with account := (s.makeRoom f).account.hold f }) ∧
      (s.grants f = false → E (.capacityExceeded f.estimatedKb (s.makeRoom f).freeKb) (s.makeRoom f)) := by
  rw [Site.grants_of_named hn]
  cases hfree : s.account.isReserved f.fileId with
  | true =>
    rw [reserve, leads_bind, leads_get, Site.makeRoom]
    dsimp only
    rw [hfree, if_pos rfl, if_pos rfl, leads_pure, Account.hold, hfree, if_pos rfl]
    simp
  | false =>
    have hheld : (s.makeRoom f).account.hold f =
        (s.makeRoom f).account.reserve f.fileId f.estimatedKb := by
      rw [Account.hold, Site.isReserved_makeRoom, hfree, if_neg Bool.false_ne_true]
    rw [leads_reserve_iff h hn _ hfree, hheld, Site.makeRoom, hfree, if_neg Bool.false_ne_true,
      Bool.false_or]

end Room

/-! ### Queueing a transfer -/

/-- The site when the transfer of a file has been queued. -/
def Site.dispatch (s : Site) (f : FileRecord) : Site :=
  { s with
    inventory := s.inventory.saveFile f
    account := s.account.hold f
    inFlight := s.inFlight.add f.fileId
    tasks := s.tasks ++ [.transfer ⟨f, .resting s.clock.elapsed⟩]
    log := s.log ++ [.queued f] }

/-- The site when a file has been turned away: its record, if it is kept and has no unlock time, is unlocked. -/
def Site.turnAway (s : Site) (f : FileRecord) : Site :=
  if f.unlockAt = none ∧ s.inventory.files.contains f.fileId = true then
    { s with inventory := s.inventory.saveFile { f with unlockAt := some s.clock.now } }
  else s

/-- A request refers to a file no longer. -/
def Site.detach (s : Site) (id : FileId) (r : RequestId) : Site :=
  { s with inventory := s.inventory.removeReference id r }

theorem Site.letGoAll_of_flies (s : Site) (inFlight : KeySet FileId) (l : List FileRecord) :
    ({ s with inFlight := inFlight } : Site).letGoAll l = { s.letGoAll l with inFlight := inFlight } := by
  induction l generalizing s with
  | nil => rfl
  | cons f l ih => exact ih (s.letGo f)

theorem Site.hasRoom_congr (settings : s'.settings = s.settings) (account : s'.account = s.account)
    (required : Option UInt64) : s'.hasRoom required = s.hasRoom required := by
  cases required with
  | none => rfl
  | some kb => rw [hasRoom, hasRoom, freeKb, freeKb, settings, account]

/-- How many files go depends on the limit and the account alone. -/
theorem Site.toll_congr (settings : s'.settings = s.settings) (account : s'.account = s.account)
    (required : Option UInt64) (l : List FileRecord) : s'.toll required l = s.toll required l := by
  induction l generalizing s s' with
  | nil => rfl
  | cons f l ih =>
    have hlimit : (s'.letGo f).settings = (s.letGo f).settings := settings
    have hgone : (s'.letGo f).account = (s.letGo f).account := by rw [letGo, letGo, account]
    rw [toll, toll, hasRoom_congr settings account, ih hlimit hgone]

/-- Which files are on their way makes no difference to how room is made. -/
theorem Site.makeRoom_of_flies (s : Site) (inFlight : KeySet FileId) (f : FileRecord) :
    ({ s with inFlight := inFlight } : Site).makeRoom f = { s.makeRoom f with inFlight := inFlight } := by
  have htoll : ({ s with inFlight := inFlight } : Site).toll (some f.estimatedKb) s.evictable =
      s.toll (some f.estimatedKb) s.evictable := by
    apply toll_congr <;> rfl
  have houtgoing : ({ s with inFlight := inFlight } : Site).outgoing (some f.estimatedKb) =
      s.outgoing (some f.estimatedKb) := congrArg (s.evictable.take ·) htoll
  have hshed : ({ s with inFlight := inFlight } : Site).shed (some f.estimatedKb) =
      { s.shed (some f.estimatedKb) with inFlight := inFlight } := by
    rw [shed, shed, letGoAll_of_flies, houtgoing]
  rw [makeRoom, makeRoom, hshed]
  dsimp only
  split <;> rfl

theorem Site.turnAway_of_flies (s : Site) (inFlight : KeySet FileId) (f : FileRecord) :
    ({ s with inFlight := inFlight } : Site).turnAway f = { s.turnAway f with inFlight := inFlight } := by
  unfold turnAway
  dsimp only
  split <;> rfl

/-- To turn a file away changes its record, if anything. -/
theorem Site.turnAway_eq (s : Site) (f : FileRecord) :
    s.turnAway f = { s with inventory := (s.turnAway f).inventory } := by
  unfold turnAway
  split <;> rfl

theorem Inventory.Named.turnAway (hn : s.inventory.Named) (f : FileRecord) :
    (s.turnAway f).inventory.Named := by
  unfold Site.turnAway
  split
  · exact hn.saveFile _
  · exact hn

namespace Transfers

theorem leads_unlock_iff (h : s.Quiet) (f : FileRecord) {Q : Unit → Site → Prop} :
    Leads (unlock f) E Q s ↔ Q () (s.turnAway f) := by
  rw [unlock, Site.turnAway]
  by_cases hlocked : f.unlockAt = none
  · rw [if_pos hlocked, leads_bind, Records.leads_loadFile_of_quiet h, leads_ite, Table.contains]
    cases (s.inventory.files.get? f.fileId).isSome with
    | true =>
      simp only [leads_bind, leads_now]
      rw [Records.leads_saveFile_of_quiet h, if_pos ⟨hlocked, trivial⟩]
      simp
    | false => simp
  · rw [if_neg hlocked, if_neg fun hboth => hlocked hboth.1, leads_pure]

/-- **Where queueing a transfer leads** that was not on its way. -/
theorem leads_queue_iff (h : s.Quiet) (hn : s.inventory.Named) {f : FileRecord}
    (grounded : s.inFlight.contains f.fileId = false) {Q : Unit → Site → Prop} :
    Leads (queue f) E Q { s with inFlight := s.inFlight.add f.fileId } ↔
      (s.grants f = true → Q () ((s.makeRoom f).dispatch f)) ∧
      (s.grants f = false →
        E (.capacityExceeded f.estimatedKb (s.makeRoom f).freeKb) ((s.makeRoom f).turnAway f)) := by
  have hflying : ({ s with inFlight := s.inFlight.add f.fileId } : Site).Quiet := h.of_same rfl rfl rfl
  have hroomy := hflying.makeRoom f
  have hstays : (s.makeRoom f).inFlight = s.inFlight := by rw [Site.makeRoom_eq]
  have hlands : (s.inFlight.add f.fileId).erase f.fileId = ((s.makeRoom f).turnAway f).inFlight := by
    rw [KeySet.erase_add grounded, Site.turnAway_eq, hstays]
  simp only [queue, leads_bind, leads_attempt]
  rw [Room.leads_reserve_makeRoom hflying hn, Site.grants_of_flies]
  refine and_congr (imp_congr_right fun _ => ?_) (imp_congr_right fun _ => ?_)
  · rw [Site.makeRoom_of_flies] at hroomy ⊢
    have hheld : ({ s.makeRoom f with
        inFlight := s.inFlight.add f.fileId, account := (s.makeRoom f).account.hold f } : Site).Quiet :=
      hroomy.of_same rfl rfl rfl
    rw [Records.leads_saveFile_of_quiet hheld]
    simp only [leads_note, leads_get, leads_join, Site.dispatch, hstays]
  · rw [leads_unlock_iff hroomy, Site.makeRoom_of_flies, Site.turnAway_of_flies]
    simp only [leaveFlight, leads_modify, leads_throw, hlands]
    rfl

end Transfers

/-! ### Asking for a file -/

/-- **What comes of asking for a file**: the answer, and the site then. -/
def Site.ask (s : Site) (r : RequestId) (entry : ManifestEntry) : Except Failure FileStatus × Site :=
  let asked := s.attach entry.fileId r
  if s.inFlight.contains entry.fileId then (.ok .pending, asked)
  else
    match needOf entry s.settings.defaultEstimateKb (s.inventory.files.get? entry.fileId) with
    | .settled status => (.ok status, asked)
    | .transfer f isNew =>
      let roomy := asked.makeRoom f
      if asked.grants f then (.ok .pending, roomy.dispatch f)
      else
        (.error (.capacityExceeded f.estimatedKb roomy.freeKb),
          if isNew then (roomy.turnAway f).detach entry.fileId r else roomy.turnAway f)

namespace Site

variable {r : RequestId} {entry : ManifestEntry} {f : FileRecord} {isNew : Bool}

theorem ask_of_flying (flying : s.inFlight.contains entry.fileId = true) :
    s.ask r entry = (.ok .pending, s.attach entry.fileId r) := by
  rw [ask, flying, if_pos rfl]

theorem ask_of_settled {status : FileStatus} (grounded : s.inFlight.contains entry.fileId = false)
    (need : needOf entry s.settings.defaultEstimateKb (s.inventory.files.get? entry.fileId) =
      .settled status) : s.ask r entry = (.ok status, s.attach entry.fileId r) := by
  rw [ask, grounded, if_neg Bool.false_ne_true, need]

theorem ask_of_granted (grounded : s.inFlight.contains entry.fileId = false)
    (need : needOf entry s.settings.defaultEstimateKb (s.inventory.files.get? entry.fileId) =
      .transfer f isNew) (granted : (s.attach entry.fileId r).grants f = true) :
    s.ask r entry = (.ok .pending, ((s.attach entry.fileId r).makeRoom f).dispatch f) := by
  rw [ask, grounded, if_neg Bool.false_ne_true, need]
  dsimp only
  rw [granted, if_pos rfl]

theorem ask_of_refused (grounded : s.inFlight.contains entry.fileId = false)
    (need : needOf entry s.settings.defaultEstimateKb (s.inventory.files.get? entry.fileId) =
      .transfer f isNew) (refused : (s.attach entry.fileId r).grants f = false) :
    s.ask r entry =
      (.error (.capacityExceeded f.estimatedKb ((s.attach entry.fileId r).makeRoom f).freeKb),
        if isNew then (((s.attach entry.fileId r).makeRoom f).turnAway f).detach entry.fileId r
        else ((s.attach entry.fileId r).makeRoom f).turnAway f) := by
  rw [ask, grounded, if_neg Bool.false_ne_true, need]
  dsimp only
  rw [refused, if_neg Bool.false_ne_true]

end Site

/-- A file that is unknown is turned away with nothing to unlock. -/
theorem Site.turnAway_of_absent {f : FileRecord} (absent : s.inventory.files.get? f.fileId = none) :
    s.turnAway f = s := by
  rw [turnAway, Table.contains_eq_false.2 absent, if_neg fun hboth => Bool.false_ne_true hboth.2]

/-- What is unknown is not evictable. -/
theorem Site.stays_of_absent (hn : s.inventory.Named) {id : FileId}
    (absent : s.inventory.files.get? id = none) : ∀ g ∈ s.evictable, g.fileId ≠ id := by
  rintro g hg rfl
  have hkept := (mem_evictable hn).1 hg
  rw [hkept.kept] at absent
  cases absent

namespace Transfers

/-- **What comes of asking for a file** that is not a catalogue. -/
theorem leads_ensure_ask (h : s.Quiet) (hn : s.inventory.Named) (r : RequestId) {entry : ManifestEntry}
    (retrievable : entry.kind.isCatalogue = false) :
    Leads (ensure r entry) (fun e s' => s.ask r entry = (.error e, s'))
      (fun status s' => s.ask r entry = (.ok status, s')) s := by
  have hattached : (s.attach entry.fileId r).Quiet := h.of_same rfl rfl rfl
  have hnamed : (s.attach entry.fileId r).inventory.Named := ⟨hn.files, hn.jobs⟩
  simp only [ensure, retrievable, Bool.false_eq_true, if_false, leads_bind]
  rw [Records.leads_addReference_of_quiet h]
  change Leads _ _ _ (s.attach entry.fileId r)
  rw [leads_get]
  refine leads_ite.2 ⟨fun hflying => ?_, fun hgrounded => ?_⟩
  · rw [leads_pure]
    exact Site.ask_of_flying hflying
  rw [leads_bind, Records.leads_loadFile_of_quiet hattached]
  simp only [leads_bind, leads_get]
  cases hneed : needOf entry (s.attach entry.fileId r).settings.defaultEstimateKb
    ((s.attach entry.fileId r).inventory.files.get? entry.fileId) with
  | settled status =>
    rw [leads_pure]
    exact Site.ask_of_settled hgrounded hneed
  | transfer f isNew =>
    obtain ⟨hid, -, hnew⟩ := wants_of_needOf hnamed hneed
    have hgrounded' : (s.attach entry.fileId r).inFlight.contains f.fileId = false := hid ▸ hgrounded
    simp only [enterFlight, leads_bind, leads_modify, leads_attempt]
    refine (leads_queue_iff hattached hnamed hgrounded').2 ⟨fun hgranted => ?_, fun hrefused => ?_⟩
    · rw [leads_pure]
      exact Site.ask_of_granted hgrounded hneed hgranted
    have hask := Site.ask_of_refused (s := s) hgrounded hneed hrefused
    cases isNew with
    | false =>
      simp only [Bool.false_eq_true, if_false, leads_throw] at hask ⊢
      exact hask
    | true =>
      simp only [if_true, leads_bind, leads_throw] at hask ⊢
      have habsent : (s.attach entry.fileId r).inventory.files.get? entry.fileId = none := hnew rfl
      have hkept := Site.kept_makeRoom _ f (Site.stays_of_absent hnamed habsent)
      have hsame : ((s.attach entry.fileId r).makeRoom f).turnAway f = (s.attach entry.fileId r).makeRoom f :=
        Site.turnAway_of_absent (by rw [hid, hkept.1, habsent])
      have hrefers : ((s.attach entry.fileId r).makeRoom f).inventory.refers entry.fileId r = true := by
        rw [Inventory.refers, hkept.2]
        exact (Inventory.refers_addReference ..).2 (.inl ⟨rfl, rfl⟩)
      rw [hsame] at hask
      rw [hsame, hid, Records.leads_removeReference_of_quiet (hattached.makeRoom f) hrefers]
      exact hask

end Transfers

/-! ### When nothing is left to evict -/

namespace Site

variable {f g : FileRecord} {id : FileId} {r : RequestId}

/-- A further reference lets no further file go. -/
theorem MayGo.of_attach (h : (s.attach id r).MayGo g) : s.MayGo g :=
  ⟨h.kept, h.unlocked, h.free, fun r' j hrefers hj =>
    h.unpinned r' j ((Inventory.refers_addReference ..).2 (.inr hrefers)) hj⟩

/-- Nor does the end of a reference to an unknown file. -/
theorem MayGo.of_detach (absent : s.inventory.files.get? id = none) (h : (s.detach id r).MayGo g) :
    s.MayGo g := by
  have hkept : s.inventory.files.get? g.fileId = some g := by
    rw [← h.kept]
    exact congrArg (Table.get? · _) (s.inventory.files_removeReference id r).symm
  have hne : g.fileId ≠ id := by
    rintro rfl
    rw [absent] at hkept
    cases hkept
  refine ⟨hkept, h.unlocked, h.free, fun r' j hrefers hj => h.unpinned r' j ?_ ?_⟩
  · rw [← hrefers]
    exact s.inventory.refers_removeReference_of_ne hne ..
  · rw [← hj]
    exact congrArg (Table.get? · _) (s.inventory.jobs_removeReference id r)

/-- What is unlocked as a file is turned away may not go in the same moment. -/
theorem MayGo.of_turnAway (h : (s.turnAway f).MayGo g) : s.MayGo g := by
  unfold turnAway at h
  split at h
  · have hne : g.fileId ≠ ({ f with unlockAt := some s.clock.now } : FileRecord).fileId := by
      intro hid
      have hkept := h.kept
      rw [hid] at hkept
      obtain rfl := Option.some.inj ((Inventory.get?_saveFile_self ..).symm.trans hkept)
      obtain ⟨u, hu, hlt⟩ := h.unlocked
      cases hu
      exact absurd hlt (Int.lt_irrefl _)
    exact ⟨(Inventory.get?_saveFile_of_ne _ hne).symm.trans h.kept, h.unlocked, h.free, h.unpinned⟩
  · exact h

/-- Nor does it let a further file go that others have gone. -/
theorem MayGo.of_letGoAll {l : List FileRecord} (h : (s.letGoAll l).MayGo g) :
    s.MayGo g ∧ g.fileId ∉ l.map FileRecord.fileId := by
  have hnot : g.fileId ∉ l.map FileRecord.fileId := by
    intro hmem
    have hkept := h.kept
    rw [files_letGoAll, if_pos hmem] at hkept
    cases hkept
  refine ⟨⟨?_, ?_, ?_, fun r j hrefers hj => h.unpinned r j ?_ ?_⟩, hnot⟩
  · rw [← h.kept, files_letGoAll, if_neg hnot]
  · have hunlocked := h.unlocked
    rwa [letGoAll_eq] at hunlocked
  · rw [← h.free, Account.isReserved, Account.isReserved, reservations_letGoAll]
  · rw [← hrefers, Inventory.refers, references_letGoAll, if_neg hnot, Inventory.refers]
  · rw [jobs_letGoAll, hj]

end Site

/-- **A depot is full** for a file: it has no reservation, there is too little room for it, and no file may be
evicted. -/
structure Site.Full (s : Site) (f : FileRecord) : Prop where
  free : s.account.isReserved f.fileId = false
  full : s.hasRoom (some f.estimatedKb) = false
  nothing : ∀ g, ¬s.MayGo g

/-- **Where room was refused the depot is full.** -/
theorem Site.full_makeRoom {f : FileRecord} (hn : s.inventory.Named) (refused : s.grants f = false) :
    (s.makeRoom f).Full f := by
  rw [grants_of_named hn, Bool.or_eq_false_iff] at refused
  obtain ⟨hfree, hfull⟩ := refused
  refine ⟨(s.isReserved_makeRoom ..).trans hfree, hfull, fun g hg => ?_⟩
  rw [makeRoom, hfree, if_neg Bool.false_ne_true] at hfull hg
  -- The eviction did not stop before its list was at its end.
  have hall : s.evictable.length ≤ s.toll (some f.estimatedKb) s.evictable :=
    (s.isLeast_toll (some f.estimatedKb) s.evictable).1.resolve_right (ne_true_of_eq_false hfull)
  obtain ⟨hmay, hnot⟩ := hg.of_letGoAll
  rw [outgoing, List.take_of_length_le hall] at hnot
  exact hnot (List.mem_map_of_mem ((mem_evictable hn).2 hmay))

namespace Site.Full

variable {f f' : FileRecord} {id : FileId} {r : RequestId} {entry : ManifestEntry} {isNew : Bool}

theorem attach (h : s.Full f) (id : FileId) (r : RequestId) : (s.attach id r).Full f :=
  ⟨h.free, h.full, fun g hg => h.nothing g hg.of_attach⟩

theorem detach (h : s.Full f) (absent : s.inventory.files.get? id = none) (r : RequestId) :
    (s.detach id r).Full f :=
  ⟨h.free, h.full, fun g hg => h.nothing g (hg.of_detach absent)⟩

theorem turnAway (h : s.Full f) : (s.turnAway f).Full f := by
  refine ⟨?_, ?_, fun g hg => h.nothing g hg.of_turnAway⟩
  all_goals rw [turnAway_eq]
  · exact h.free
  · exact h.full

theorem of_estimate (h : s.Full f) (id : f'.fileId = f.fileId) (estimate : f'.estimatedKb = f.estimatedKb) :
    s.Full f' :=
  ⟨by rw [id]; exact h.free, by rw [estimate]; exact h.full, h.nothing⟩

/-- In a depot that is full no room can be made. -/
theorem makeRoom (h : s.Full f) (hn : s.inventory.Named) : s.makeRoom f = s := by
  have hnothing : s.evictable = [] :=
    List.eq_nil_iff_forall_not_mem.2 fun g hg => h.nothing g ((mem_evictable hn).1 hg)
  rw [Site.makeRoom, shed, outgoing, hnothing, List.take_nil, letGoAll_nil, ite_self]

/-- **Whoever finds the depot full is turned away** with the room that there is. -/
theorem ask (h : s.Full f) (hn : s.inventory.Named) (grounded : s.inFlight.contains entry.fileId = false)
    (need : needOf entry s.settings.defaultEstimateKb (s.inventory.files.get? entry.fileId) =
      .transfer f isNew) (r : RequestId) :
    s.ask r entry =
      (.error (.capacityExceeded f.estimatedKb s.freeKb),
        if isNew then ((s.attach entry.fileId r).turnAway f).detach entry.fileId r
        else (s.attach entry.fileId r).turnAway f) := by
  have hnamed : (s.attach entry.fileId r).inventory.Named := ⟨hn.files, hn.jobs⟩
  have hattached := h.attach entry.fileId r
  have hrefused : (s.attach entry.fileId r).grants f = false := by
    rw [grants_of_named hnamed, hattached.makeRoom hnamed]
    exact Bool.or_eq_false_iff.2 ⟨hattached.free, hattached.full⟩
  rw [ask_of_refused grounded need hrefused, hattached.makeRoom hnamed]
  rfl

end Site.Full

namespace Transfers

variable {r : RequestId} {entry : ManifestEntry}

/-- What asking for a file answers, and where it leaves the depot. -/
theorem run_ensure (h : s.Quiet) (hn : s.inventory.Named) (r : RequestId)
    (retrievable : entry.kind.isCatalogue = false) :
    (ensure r entry).answer s = (s.ask r entry).1 ∧ (ensure r entry).after s = (s.ask r entry).2 := by
  have hleads := leads_ensure_ask h hn r retrievable
  cases hanswer : (ensure r entry).answer s with
  | error e => rw [hleads.of_error hanswer]; exact ⟨rfl, rfl⟩
  | ok status => rw [hleads.of_ok hanswer]; exact ⟨rfl, rfl⟩

theorem reply_ask (h : s.Quiet) (hn : s.inventory.Named) (r : RequestId)
    (retrievable : entry.kind.isCatalogue = false) :
    Reply r entry s (s.ask r entry).1 (s.ask r entry).2 := by
  have hleads := leads_ensure_of_quiet h hn r retrievable
  obtain ⟨hanswer, hafter⟩ := run_ensure h hn r retrievable
  cases hreply : (s.ask r entry).1 with
  | error e => exact hafter ▸ hleads.of_error (hanswer.trans hreply)
  | ok status => exact hafter ▸ hleads.of_ok (hanswer.trans hreply)

/-- The answer is a status, or that the room does not suffice. -/
theorem Reply.answer_cases {answer : Except Failure FileStatus} (c : Reply r entry s answer s') :
    (∃ status, answer = .ok status) ∨ ∃ kb room, answer = .error (.capacityExceeded kb room) := by
  cases c with
  | flying | settled | dispatched => exact .inl ⟨_, rfl⟩
  | turnedAway kb room => exact .inr ⟨kb, room, rfl⟩

end Transfers

end Depot
