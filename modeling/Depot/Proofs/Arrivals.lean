import Depot.Proofs.References
import Depot.Proofs.Requests

/-!
# The order in which requests arrive

Two live jobs may ask for the same file, one after the other and with nothing in between. Whoever comes first
makes the room, queues the transfer or is turned away; whoever comes second finds it so. It makes no difference
which of them comes first: both get the same answer, the same files are evicted, and the depot is left as if both
had referred to the file at once and room had then been made for it (`Site.askBoth`).

That holds because the references of live jobs, once they are made, keep the file itself from being evicted, and
all else that is evicted is evicted for either. Where the first is turned away nothing is left to evict for the
second. Only the log can tell the two orders apart: with each eviction it notes the inventory of that moment, and
there one of the two references is missing.

## Main statements

* `Site.alike_makeRoom` — a reference made before or after room is made.
* `Site.ask_twice` — what comes of two requests, in terms in which they can be exchanged.
* `arrival_order_is_immaterial` — the order of two requests does not matter.
-/

namespace Depot

open Act Time Transfers

variable {s t u : Site} {id : FileId} {r r₁ r₂ : RequestId} {f : FileRecord}

/-! ### Depots that are alike -/

/-- An entry of the log without the inventory that is noted with an eviction. -/
def Happening.gist : Happening → Happening
  | .evicted f moment _ => .evicted f moment .fresh
  | h => h

/-- **Depots are alike** that differ at most in the inventories noted with their evictions. -/
inductive Site.Alike (s : Site) : Site → Prop
  | intro {log : List Happening} (gist : log.map Happening.gist = s.log.map Happening.gist) :
      Alike s { s with log := log }

namespace Site.Alike

theorem refl (s : Site) : s.Alike s := @intro s s.log rfl

theorem symm (h : s.Alike t) : t.Alike s := by
  cases h with
  | intro gist => exact intro (gist.symm : s.log.map Happening.gist = _)

theorem trans (h : s.Alike t) (h' : t.Alike u) : s.Alike u := by
  cases h with
  | intro gist =>
    cases h' with
    | intro gist' => exact .intro (gist'.trans gist)

theorem settings (h : s.Alike t) : t.settings = s.settings := by cases h; rfl

theorem account (h : s.Alike t) : t.account = s.account := by cases h; rfl

theorem tasks (h : s.Alike t) : t.tasks = s.tasks := by cases h; rfl

/-- In depots that are alike the same records were evicted. -/
theorem evicted (h : s.Alike t) : t.evictions.map Prod.fst = s.evictions.map Prod.fst := by
  have hgist : ∀ log : List Happening, (log.filterMap Happening.eviction?).map Prod.fst =
      (log.map Happening.gist).filterMap fun h => h.eviction?.map Prod.fst := by
    intro log
    rw [List.map_filterMap, List.filterMap_map]
    refine List.filterMap_congr fun h _ => ?_
    cases h <;> rfl
  cases h with
  | intro gist => rw [Site.evictions, Site.evictions, hgist, hgist, gist]

/-! What is done to depots that are alike leaves them so. -/

theorem attach (h : s.Alike t) (id : FileId) (r : RequestId) : (s.attach id r).Alike (t.attach id r) := by
  cases h with
  | intro gist => exact .intro gist

theorem detach (h : s.Alike t) (id : FileId) (r : RequestId) : (s.detach id r).Alike (t.detach id r) := by
  cases h with
  | intro gist => exact .intro gist

theorem turnAway (h : s.Alike t) (f : FileRecord) : (s.turnAway f).Alike (t.turnAway f) := by
  cases h with
  | intro gist =>
    unfold Site.turnAway
    dsimp only
    split <;> exact .intro gist

theorem dispatch (h : s.Alike t) (f : FileRecord) : (s.dispatch f).Alike (t.dispatch f) := by
  cases h with
  | intro gist => exact .intro (by rw [List.map_append, gist, Site.dispatch, List.map_append])

theorem letGo (h : s.Alike t) (f : FileRecord) : (s.letGo f).Alike (t.letGo f) := by
  cases h with
  | intro gist => exact .intro (by rw [List.map_append, gist, Site.letGo, List.map_append])

theorem letGoAll (h : s.Alike t) (l : List FileRecord) : (s.letGoAll l).Alike (t.letGoAll l) := by
  induction l generalizing s t with
  | nil => exact h
  | cons f l ih => exact ih (h.letGo f)

end Site.Alike

/-! ### Making room for a file that is referred to -/

namespace Site

/-- A file may be referred to before another is evicted or after. -/
theorem alike_letGo (ne : f.fileId ≠ id) : ((s.letGo f).attach id r).Alike ((s.attach id r).letGo f) := by
  have hinventory := s.inventory.deleteFile_addReference ne r
  have hsame : (s.attach id r).letGo f =
      { (s.letGo f).attach id r with log := ((s.attach id r).letGo f).log } := by
    simp only [letGo, attach, hinventory]
    rfl
  have hlog : ((s.attach id r).letGo f).log.map Happening.gist =
      ((s.letGo f).attach id r).log.map Happening.gist := by
    simp only [letGo, attach, List.map_append, List.map_cons, Happening.gist]
  rw [hsame]
  exact .intro hlog

theorem alike_letGoAll {l : List FileRecord} (ne : ∀ f ∈ l, f.fileId ≠ id) :
    ((s.letGoAll l).attach id r).Alike ((s.attach id r).letGoAll l) := by
  induction l generalizing s with
  | nil => exact .refl _
  | cons f l ih =>
    have hrest := ih (s := s.letGo f) fun g hg => ne g (.tail _ hg)
    exact hrest.trans ((alike_letGo (ne f (.head _))).letGoAll l)

/-- What a live job refers to is not evictable. -/
theorem stays_of_live {j : Job} (refers : s.inventory.refers id r = true)
    (kept : s.inventory.jobs.get? r = some j) (live : j.status.isLive = true) :
    ∀ g ∈ s.evictable, g.fileId ≠ id := by
  rintro g hg rfl
  have hdead := (mem_evictable_iff.1 hg).2.2.2 r j refers kept
  rw [live] at hdead
  cases hdead

/-- A reference to a file that is not evictable makes no difference to the others. -/
theorem evictable_attach (stays : ∀ g ∈ s.evictable, g.fileId ≠ id) (r : RequestId) :
    (s.attach id r).evictable = s.evictable := by
  refine List.filter_congr fun g hg => ?_
  by_cases hid : g.fileId = id
  · have hpinned : ¬s.isFree g = true := fun hfree => stays g (List.mem_filter.2 ⟨hg, hfree⟩) hid
    have hstill : ¬(s.attach id r).isFree g = true := by
      rw [isFree_eq_true, Inventory.hasLiveReferrer_eq_false] at hpinned ⊢
      exact fun hfree => hpinned ⟨hfree.1, fun r' j hrefers =>
        hfree.2 r' j ((Inventory.refers_addReference ..).2 (.inr hrefers))⟩
    rw [Bool.eq_false_iff.2 hpinned, Bool.eq_false_iff.2 hstill]
  · have hreferrers : (s.attach id r).inventory.referrers g.fileId = s.inventory.referrers g.fileId := by
      rw [Inventory.referrers, attach, Inventory.get?_addReference, if_neg hid, Inventory.referrers]
    rw [isFree, isFree, Inventory.hasLiveReferrer, hreferrers]
    rfl

/-- **A reference made before or after room is made**, to a file that is not evictable. -/
theorem alike_makeRoom (stays : ∀ g ∈ s.evictable, g.fileId ≠ id) (r : RequestId) (f : FileRecord) :
    ((s.makeRoom f).attach id r).Alike ((s.attach id r).makeRoom f) := by
  have houtgoing : (s.attach id r).outgoing (some f.estimatedKb) = s.outgoing (some f.estimatedKb) := by
    rw [outgoing, outgoing, evictable_attach stays]
    congr 1
    apply toll_congr <;> rfl
  have hshed : ((s.shed (some f.estimatedKb)).attach id r).Alike
      ((s.attach id r).shed (some f.estimatedKb)) := by
    rw [shed, shed, houtgoing]
    exact alike_letGoAll fun g hg => stays g (List.mem_of_mem_take hg)
  rw [makeRoom, makeRoom]
  change Alike (attach (if s.account.isReserved f.fileId = true then _ else _) id r)
    (if s.account.isReserved f.fileId = true then _ else _)
  split
  · exact .refl _
  · exact hshed

/-- Nor does such a reference make a difference to whether there is room. -/
theorem grants_attach (hn : s.inventory.Named) (stays : ∀ g ∈ s.evictable, g.fileId ≠ id) :
    (s.attach id r).grants f = s.grants f := by
  have hroomy := alike_makeRoom stays r f
  rw [grants_of_named (s := s.attach id r) ⟨hn.files, hn.jobs⟩, grants_of_named hn,
    hasRoom_congr hroomy.settings hroomy.account]
  rfl

theorem freeKb_makeRoom_attach (stays : ∀ g ∈ s.evictable, g.fileId ≠ id) :
    ((s.attach id r).makeRoom f).freeKb = (s.makeRoom f).freeKb := by
  have hroomy := alike_makeRoom stays r f
  rw [freeKb, hroomy.settings, hroomy.account]
  rfl

/-! ### Two requests for one file -/

theorem attach_comm (s : Site) (id : FileId) (r₁ r₂ : RequestId) :
    (s.attach id r₁).attach id r₂ = (s.attach id r₂).attach id r₁ := by
  rw [attach, attach, attach, attach, Inventory.addReference_comm]

theorem detach_comm (s : Site) (id : FileId) (r₁ r₂ : RequestId) :
    (s.detach id r₁).detach id r₂ = (s.detach id r₂).detach id r₁ := by
  rw [detach, detach, detach, detach, Inventory.removeReference_comm]

theorem attach_turnAway (s : Site) (f : FileRecord) (id : FileId) (r : RequestId) :
    (s.turnAway f).attach id r = (s.attach id r).turnAway f := by
  unfold turnAway
  change (attach (if f.unlockAt = none ∧ s.inventory.files.contains f.fileId = true then _ else _) id r) =
    if f.unlockAt = none ∧ s.inventory.files.contains f.fileId = true then _ else _
  split <;> rfl

/-- **What comes of two requests for a file**: both refer to it at once, and then it is dealt with as for one. -/
def askBoth (s : Site) (r₁ r₂ : RequestId) (entry : ManifestEntry) : Except Failure FileStatus × Site :=
  let asked := (s.attach entry.fileId r₁).attach entry.fileId r₂
  if s.inFlight.contains entry.fileId then (.ok .pending, asked)
  else
    match needOf entry s.settings.defaultEstimateKb (s.inventory.files.get? entry.fileId) with
    | .settled status => (.ok status, asked)
    | .transfer f isNew =>
      let roomy := asked.makeRoom f
      if asked.grants f then (.ok .pending, roomy.dispatch f)
      else
        (.error (.capacityExceeded f.estimatedKb roomy.freeKb),
          if isNew then (roomy.detach entry.fileId r₁).detach entry.fileId r₂ else roomy.turnAway f)

theorem askBoth_comm (s : Site) (r₁ r₂ : RequestId) (entry : ManifestEntry) :
    s.askBoth r₁ r₂ entry = s.askBoth r₂ r₁ entry := by
  simp only [askBoth, s.attach_comm entry.fileId r₁ r₂, detach_comm _ entry.fileId r₁ r₂]

end Site

/-- A file that is still to come must be transferred as it is kept. -/
theorem Transfers.needOf_of_isPending (pending : f.isPending = true) (entry : ManifestEntry) (kb : UInt64) :
    needOf entry kb (some f) = .transfer f false := by
  simp only [FileRecord.isPending, Bool.and_eq_true, Bool.not_eq_true'] at pending
  obtain ⟨havailable, hfailed⟩ := pending
  have hsame : { f with available := false } = f := by rw [← havailable]
  rw [needOf, hsame, if_neg (ne_true_of_eq_false hfailed), havailable, Bool.false_and,
    if_neg Bool.false_ne_true]

/-- A file that was turned away must still be transferred, and is not unlocked once more. -/
theorem Transfers.needOf_turnAway (hn : s.inventory.Named) {entry : ManifestEntry} {kb : UInt64}
    (need : needOf entry kb (s.inventory.files.get? entry.fileId) = .transfer f false) :
    ∃ f', needOf entry kb ((s.turnAway f).inventory.files.get? entry.fileId) = .transfer f' false ∧
      f'.fileId = f.fileId ∧ f'.estimatedKb = f.estimatedKb ∧ f'.unlockAt ≠ none := by
  obtain ⟨hid, hwanted, -⟩ := wants_of_needOf hn need
  by_cases hlocked : f.unlockAt = none
  · have hcontained : s.inventory.files.contains f.fileId = true := by
      rw [hid, Table.contains]
      cases hkept : s.inventory.files.get? entry.fileId with
      | none => rw [hkept] at need; cases need
      | some f₀ => rfl
    rw [Site.turnAway, if_pos ⟨hlocked, hcontained⟩, Inventory.get?_saveFile, if_pos hid.symm]
    have hpending : ({ f with unlockAt := some s.clock.now } : FileRecord).isPending = true :=
      hwanted.pending
    exact ⟨_, needOf_of_isPending hpending .., rfl, rfl, Option.some_ne_none _⟩
  · rw [Site.turnAway, if_neg fun hboth => hlocked hboth.1]
    exact ⟨f, need, rfl, rfl, hlocked⟩

namespace Site

variable {entry : ManifestEntry}

/-- Whoever asks for a file that was turned away is turned away, too. -/
theorem Full.ask_turnAway (h : s.Full f) (hn : s.inventory.Named)
    (grounded : s.inFlight.contains entry.fileId = false)
    (need : needOf entry s.settings.defaultEstimateKb (s.inventory.files.get? entry.fileId) =
      .transfer f false) (r : RequestId) :
    (s.turnAway f).ask r entry =
      (.error (.capacityExceeded f.estimatedKb s.freeKb), (s.attach entry.fileId r).turnAway f) := by
  obtain ⟨f', hneed, hid, hestimate, hunlocked⟩ := needOf_turnAway hn need
  have hgrounded : (s.turnAway f).inFlight.contains entry.fileId = false := by
    rw [turnAway_eq]
    exact grounded
  have hfree : (s.turnAway f).freeKb = s.freeKb := by
    rw [turnAway_eq]
    rfl
  have hlimit : (s.turnAway f).settings = s.settings := by rw [turnAway_eq]
  rw [← hlimit] at hneed
  have hsame : ((s.turnAway f).attach entry.fileId r).turnAway f' = (s.turnAway f).attach entry.fileId r :=
    if_neg fun hboth => hunlocked hboth.1
  rw [(h.turnAway.of_estimate hid hestimate).ask (hn.turnAway f) hgrounded hneed, if_neg Bool.false_ne_true,
    hestimate, hfree, hsame, attach_turnAway]

/-- So is whoever asks for a file that was unknown, and to which the first request does not refer any more. -/
theorem Full.ask_detach (h : s.Full f) (hn : s.inventory.Named)
    (grounded : s.inFlight.contains entry.fileId = false)
    (need : needOf entry s.settings.defaultEstimateKb (s.inventory.files.get? entry.fileId) =
      .transfer f true) (r₁ r₂ : RequestId) :
    (s.detach entry.fileId r₁).ask r₂ entry =
      (.error (.capacityExceeded f.estimatedKb s.freeKb),
        ((s.attach entry.fileId r₂).detach entry.fileId r₁).detach entry.fileId r₂) := by
  obtain ⟨hid, -, hnew⟩ := wants_of_needOf hn need
  have habsent := hnew rfl
  have hfiles := s.inventory.files_removeReference entry.fileId r₁
  have hneed : needOf entry (s.detach entry.fileId r₁).settings.defaultEstimateKb
      ((s.detach entry.fileId r₁).inventory.files.get? entry.fileId) = .transfer f true := by
    rw [← need, ← hfiles]
    rfl
  have hgone : ((s.detach entry.fileId r₁).attach entry.fileId r₂).inventory.files.get? f.fileId = none := by
    rw [hid]
    exact (congrArg (Table.get? · _) hfiles).trans habsent
  rw [(h.detach habsent r₁).ask (hn.removeReference ..) grounded hneed, if_pos rfl, turnAway_of_absent hgone]
  exact congrArg (fun v => (_, { s with inventory := v }))
    (s.inventory.removeReference_addReference entry.fileId r₁ r₂)

/-- Whoever asks next is turned away, whether the file was known or not. -/
theorem Full.ask_again {isNew : Bool} (h : s.Full f) (hn : s.inventory.Named)
    (grounded : s.inFlight.contains entry.fileId = false)
    (need : needOf entry s.settings.defaultEstimateKb (s.inventory.files.get? entry.fileId) =
      .transfer f isNew) (r₁ r₂ : RequestId) :
    (if isNew then (s.turnAway f).detach entry.fileId r₁ else s.turnAway f).ask r₂ entry =
      (.error (.capacityExceeded f.estimatedKb s.freeKb),
        if isNew then ((s.attach entry.fileId r₂).detach entry.fileId r₁).detach entry.fileId r₂
        else (s.attach entry.fileId r₂).turnAway f) := by
  cases isNew with
  | false =>
    rw [if_neg Bool.false_ne_true, if_neg Bool.false_ne_true]
    exact h.ask_turnAway hn grounded need r₂
  | true =>
    obtain ⟨hid, -, hnew⟩ := wants_of_needOf hn need
    rw [if_pos rfl, if_pos rfl, turnAway_of_absent (by rw [hid]; exact hnew rfl)]
    exact h.ask_detach hn grounded need r₁ r₂

/-- **What comes of one request after the other**, where the requests are live jobs. -/
theorem ask_twice (hn : s.inventory.Named) {j₁ : Job} (kept₁ : s.inventory.jobs.get? r₁ = some j₁)
    (live₁ : j₁.status.isLive = true) (r₂ : RequestId) (entry : ManifestEntry) :
    (s.ask r₁ entry).1 = (s.askBoth r₁ r₂ entry).1 ∧
    ((s.ask r₁ entry).2.ask r₂ entry).1 = (s.askBoth r₁ r₂ entry).1 ∧
    (s.askBoth r₁ r₂ entry).2.Alike ((s.ask r₁ entry).2.ask r₂ entry).2 := by
  cases hflying : s.inFlight.contains entry.fileId with
  | true =>
    rw [ask_of_flying hflying, ask_of_flying (s := s.attach entry.fileId r₁) hflying, askBoth, hflying,
      if_pos rfl]
    exact ⟨rfl, rfl, .refl _⟩
  | false =>
  cases hneed : needOf entry s.settings.defaultEstimateKb (s.inventory.files.get? entry.fileId) with
  | settled status =>
    rw [ask_of_settled hflying hneed, ask_of_settled (s := s.attach entry.fileId r₁) hflying hneed, askBoth,
      hflying, if_neg Bool.false_ne_true, hneed]
    exact ⟨rfl, rfl, .refl _⟩
  | transfer f isNew =>
  let t := s.attach entry.fileId r₁
  have hnamed : t.inventory.Named := ⟨hn.files, hn.jobs⟩
  -- The file itself stays, since the first request refers to it.
  have hstays := stays_of_live (s := t) ((Inventory.refers_addReference ..).2 (.inl ⟨rfl, rfl⟩)) kept₁ live₁
  have hroomy := alike_makeRoom hstays r₂ f
  rw [askBoth, hflying, if_neg Bool.false_ne_true, hneed]
  dsimp only
  rw [grants_attach hnamed hstays, freeKb_makeRoom_attach hstays]
  cases hgranted : t.grants f with
  | true =>
    have hnow : ((t.makeRoom f).dispatch f).inFlight.contains entry.fileId = true :=
      (KeySet.contains_add ..).2 (.inl (wants_of_needOf hn hneed).1.symm)
    rw [ask_of_granted hflying hneed hgranted, ask_of_flying hnow, if_pos rfl]
    exact ⟨rfl, rfl, (hroomy.dispatch f).symm⟩
  | false =>
    have hgrounded : (t.makeRoom f).inFlight.contains entry.fileId = false := by
      rw [makeRoom_eq]
      exact hflying
    have hstill : needOf entry (t.makeRoom f).settings.defaultEstimateKb
        ((t.makeRoom f).inventory.files.get? entry.fileId) = .transfer f isNew := by
      rw [(t.kept_makeRoom f hstays).1, makeRoom_eq]
      exact hneed
    have hagain := (full_makeRoom hnamed hgranted).ask_again (hnamed.makeRoom f) hgrounded hstill r₁ r₂
    rw [ask_of_refused hflying hneed hgranted, if_neg Bool.false_ne_true, hagain]
    refine ⟨rfl, rfl, ?_⟩
    cases isNew with
    | false => exact (hroomy.turnAway f).symm
    | true => exact ((hroomy.detach ..).detach ..).symm

/-- At most one transfer is queued. -/
theorem tasks_askBoth (hn : s.inventory.Named) (r₁ r₂ : RequestId) (entry : ManifestEntry) :
    (s.askBoth r₁ r₂ entry).2.tasks = s.tasks ∨
      ∃ f, f.fileId = entry.fileId ∧
        (s.askBoth r₁ r₂ entry).2.tasks = s.tasks ++ [.transfer ⟨f, .resting s.clock.elapsed⟩] := by
  unfold askBoth
  dsimp only
  split
  · exact .inl rfl
  cases hneed : needOf entry s.settings.defaultEstimateKb (s.inventory.files.get? entry.fileId) with
  | settled status => exact .inl rfl
  | transfer f isNew =>
    have hroomy := ((s.attach entry.fileId r₁).attach entry.fileId r₂).makeRoom_eq f
    dsimp only
    split
    · refine .inr ⟨f, (wants_of_needOf hn hneed).1, ?_⟩
      rw [hroomy]
      rfl
    · refine .inl ?_
      split
      · rw [hroomy]
        rfl
      · rw [turnAway_eq, hroomy]
        rfl

end Site

/-- **The order in which two requests arrive does not matter.** Whatever is in flight and however files,
references, room and jobs stand: where no call is refused and two live jobs ask for the same file, one right after
the other, both get the same answer, whichever comes first. It is a status, or that the room does not suffice,
with the same numbers. In either order the same files are evicted, at most one transfer is queued, and the depot
is left the same but for the inventories noted with the evictions. -/
theorem arrival_order_is_immaterial (h : s.Secluded) (faultless : s.Faultless) (hn : s.inventory.Named)
    {j₁ j₂ : Job} (kept₁ : s.inventory.jobs.get? r₁ = some j₁) (live₁ : j₁.status.isLive = true)
    (kept₂ : s.inventory.jobs.get? r₂ = some j₂) (live₂ : j₂.status.isLive = true) {entry : ManifestEntry}
    (retrievable : entry.kind.isCatalogue = false) :
    let first := ensure r₁ entry
    let second := ensure r₂ entry
    let s₁₂ := second.after (first.after s)
    let s₂₁ := first.after (second.after s)
    (∃ answer, ((∃ status, answer = .ok status) ∨ ∃ kb room, answer = .error (.capacityExceeded kb room)) ∧
      first.answer s = answer ∧ second.answer (first.after s) = answer ∧
      second.answer s = answer ∧ first.answer (second.after s) = answer) ∧
    s₁₂.Alike s₂₁ ∧ s₁₂.evictions.map Prod.fst = s₂₁.evictions.map Prod.fst ∧
    (s₁₂.tasks = s.tasks ∨ ∃ f, f.fileId = entry.fileId ∧
      s₁₂.tasks = s.tasks ++ [.transfer ⟨f, .resting s.clock.elapsed⟩]) := by
  have hquiet : s.Quiet := ⟨h, faultless⟩
  have hrun : ∀ r, (ensure r entry).answer s = (s.ask r entry).1 ∧
      (ensure r entry).after s = (s.ask r entry).2 := fun r => run_ensure hquiet hn r retrievable
  have hagain : ∀ r r', (ensure r' entry).answer (s.ask r entry).2 = ((s.ask r entry).2.ask r' entry).1 ∧
      (ensure r' entry).after (s.ask r entry).2 = ((s.ask r entry).2.ask r' entry).2 := by
    intro r r'
    have hreply := reply_ask hquiet hn r retrievable
    exact run_ensure (hreply.quiet hquiet) (hreply.named hn) r' retrievable
  obtain ⟨hfirst, hsecond, halike⟩ := Site.ask_twice hn kept₁ live₁ r₂ entry
  obtain ⟨hfirst', hsecond', halike'⟩ := Site.ask_twice hn kept₂ live₂ r₁ entry
  rw [s.askBoth_comm] at hfirst' hsecond' halike'
  intro first second s₁₂ s₂₁
  have hsame : s₁₂.Alike s₂₁ := by
    simp only [s₁₂, s₂₁, first, second, (hrun _).2, (hagain ..).2]
    exact halike.symm.trans halike'
  refine ⟨⟨(s.askBoth r₁ r₂ entry).1, ?_, ?_, ?_, ?_, ?_⟩, hsame, hsame.evicted.symm, ?_⟩
  · rw [← hfirst]
    exact (reply_ask hquiet hn r₁ retrievable).answer_cases
  · exact (hrun r₁).1.trans hfirst
  · rw [(hrun r₁).2]
    exact (hagain r₁ r₂).1.trans hsecond
  · exact (hrun r₂).1.trans hfirst'
  · rw [(hrun r₂).2]
    exact (hagain r₂ r₁).1.trans hsecond'
  · have hended : s₁₂.tasks = (s.askBoth r₁ r₂ entry).2.tasks := by
      simp only [s₁₂, first, second, (hrun _).2, (hagain ..).2]
      exact halike.tasks
    rw [hended]
    exact s.tasks_askBoth hn r₁ r₂ entry

/-- A depot with a limit of 100 KB, a second into 1970. A file of 60 KB is there and may be evicted, and two jobs are
prepared. -/
def contestedSite : Site where
  settings := { cacheRoot := "cache", limitKb := 100 }
  clock := { hand := 1000 }
  account := { committed := 60 }
  inventory :=
    ((Inventory.fresh.saveFile
      { FileRecord.ofEntry ⟨⟨"f"⟩, .spectrum, none, none⟩ 0 with
        sizeKb := some 60, available := true, unlockAt := some .epoch }).saveJob
      (.create ⟨"j"⟩ .web [] .epoch)).saveJob (.create ⟨"k"⟩ .web [] .epoch)

/-- An entry that asks for a file of so many kilobytes. -/
def contestedEntry (kb : UInt64) : ManifestEntry := ⟨⟨"g"⟩, .spectrum, none, some kb⟩

/-- Both jobs wait for a file of 60 KB, for which the other is evicted; and both are turned away with one of 200 KB,
for which there can be no room. -/
theorem arrivals_at_contestedSite :
    (let first := ensure ⟨"j"⟩ (contestedEntry 60)
    let second := ensure ⟨"k"⟩ (contestedEntry 60)
    first.answer contestedSite = .ok .pending ∧ first.answer (second.after contestedSite) = .ok .pending ∧
      (second.after (first.after contestedSite)).evictions.map (fun x => x.1.fileId) = [⟨"f"⟩] ∧
      (second.after (first.after contestedSite)).Alike (first.after (second.after contestedSite))) ∧
    ∃ kb room, (ensure ⟨"j"⟩ (contestedEntry 200)).answer contestedSite = .error (.capacityExceeded kb room) ∧
      (ensure ⟨"k"⟩ (contestedEntry 200)).answer ((ensure ⟨"j"⟩ (contestedEntry 200)).after contestedSite) =
        .error (.capacityExceeded kb room) := by
  have hj : contestedSite.inventory.jobs.get? ⟨"j"⟩ = some (.create ⟨"j"⟩ .web [] .epoch) := by decide +kernel
  have hk : contestedSite.inventory.jobs.get? ⟨"k"⟩ = some (.create ⟨"k"⟩ .web [] .epoch) := by decide +kernel
  have hkind : ∀ kb, (contestedEntry kb).kind.isCatalogue = false := fun _ => rfl
  have hall := fun kb => arrival_order_is_immaterial (s := contestedSite) ⟨rfl, rfl, rfl, rfl, rfl⟩ (fun _ => rfl)
    (((Inventory.Named.fresh.saveFile _).saveJob _).saveJob _) hj rfl hk rfl (hkind kb)
  obtain ⟨⟨answer, -, hfirst, -, -, hsecond⟩, halike, -⟩ := hall 60
  obtain ⟨⟨answer', hanswer', hfirst', hsecond', -⟩, -⟩ := hall 200
  have hpending : ((ensure ⟨"j"⟩ (contestedEntry 60)).answer contestedSite).toOption = some .pending := by
    decide +kernel
  have hrefused : ((ensure ⟨"j"⟩ (contestedEntry 200)).answer contestedSite).toOption = none := by
    decide +kernel
  obtain rfl : answer = .ok .pending := by
    rw [hfirst] at hpending
    cases answer with
    | error e => cases hpending
    | ok status => exact congrArg _ (Option.some.inj hpending)
  obtain ⟨status, rfl⟩ | ⟨kb, room, rfl⟩ := hanswer'
  · rw [hfirst'] at hrefused
    cases hrefused
  · exact ⟨⟨hfirst, hsecond, by decide +kernel, halike⟩, kb, room, hfirst', hsecond'⟩

end Depot
