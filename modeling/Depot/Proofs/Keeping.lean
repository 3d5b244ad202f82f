import Depot.Proofs.Disk
import Depot.Proofs.Records
import Depot.Proofs.Written

/-!
# Inventories that are kept in a file

A change of the inventory is made in memory first and then written to the file as a whole. If it can be
written, the file is read back as what is in memory (`Site.KeptAt`), and nothing is lost when the
inventory is opened again (`restart_loses_nothing`): that is so for records with any texts, numbers and
times, since an inventory is read back from its text.

If it cannot be written, the call fails, and the change stays in memory all the same. From then on every
question is answered as if the call had been made, while the file is what it was
(`failed_write_stays_in_memory`).

## Honest scope

Between the calls nobody touches the file. The calls may be refused after any pattern; what the inventory
itself answers is what it answers once they are not (`Site.unhindered`).
-/

namespace Depot

open Act Time

variable {α : Type} {s s' : Site} {path : String}

/-! ### Calls -/

/-- A question to the inventory, with the type of its answer. -/
inductive Query : Type → Type
  | loadFile (id : FileId) : Query (Option FileRecord)
  | sumAvailable : Query Nat
  | findUnlocked (time : Instant) : Query (List FileRecord)
  | findPending : Query (List FileRecord)
  | findReferrers (id : FileId) : Query (List RequestId)
  | loadJob (r : RequestId) : Query (Option Job)
  | findByStatus (status : JobStatus) : Query (List Job)
  | findExpiring (after upTo : Instant) : Query (List Job)
  | findUnexpired (time : Instant) : Query (List Job)
  /-- All that the inventory holds. -/
  | snapshot : Query Inventory

/-- A change of the inventory, with the type of its answer. -/
inductive Edit : Type → Type
  | saveFile (f : FileRecord) : Edit Unit
  | deleteFile (id : FileId) : Edit (Option FileRecord)
  | addReference (id : FileId) (r : RequestId) : Edit Unit
  | removeReference (id : FileId) (r : RequestId) : Edit Unit
  | saveJob (j : Job) : Edit Unit

namespace Query

/-- The call that asks a question. -/
def act : Query α → Act α
  | loadFile id => Records.loadFile id
  | sumAvailable => Records.sumAvailable
  | findUnlocked time => Records.findUnlocked time
  | findPending => Records.findPending
  | findReferrers id => Records.findReferrers id
  | loadJob r => Records.loadJob r
  | findByStatus status => Records.findByStatus status
  | findExpiring after upTo => Records.findExpiring after upTo
  | findUnexpired time => Records.findUnexpired time
  | snapshot => do return (← get).inventory

/-- What an inventory says to a question. -/
def read : Query α → Inventory → α
  | loadFile id, v => v.files.get? id
  | sumAvailable, v => v.availableKb
  | findUnlocked time, v => v.unlockedBefore time
  | findPending, v => v.pendingFiles
  | findReferrers id, v => v.referrers id
  | loadJob r, v => v.jobs.get? r
  | findByStatus status, v => v.jobsWithStatus status
  | findExpiring after upTo, v => v.expiringBetween after upTo
  | findUnexpired time, v => v.unexpiredAt time
  | snapshot, v => v

end Query

namespace Edit

/-- The call that makes a change. -/
def act : Edit α → Act α
  | saveFile f => Records.saveFile f
  | deleteFile id => Records.deleteFile id
  | addReference id r => Records.addReference id r
  | removeReference id r => Records.removeReference id r
  | saveJob j => Records.saveJob j

/-- What a change makes of an inventory. -/
def result : Edit α → Inventory → Inventory
  | saveFile f, v => v.saveFile f
  | deleteFile id, v => v.deleteFile id
  | addReference id r, v => v.addReference id r
  | removeReference id r, v => if v.refers id r then v.removeReference id r else v
  | saveJob j, v => v.saveJob j

end Edit

/-- A call of the inventory, whatever it answers. -/
inductive Call
  | query {α : Type} (q : Query α)
  | edit {α : Type} (e : Edit α)

namespace Call

/-- Make a call. -/
def act : Call → Act Unit
  | query q => do let _ ← q.act
  | edit e => do let _ ← e.act

/-- Make calls one after the other, as long as they succeed. -/
def all : List Call → Act Unit
  | [] => pure ()
  | c :: rest => do
    c.act
    all rest

/-- Open the inventory and make calls of it. -/
def session (calls : List Call) : Act Unit := do
  Opening.reload
  all calls

end Call

/-! ### Questions -/

/-- A question changes nothing; when no fault is to strike, it is answered from the inventory. -/
theorem Query.leads (q : Query α) (s : Site) :
    Leads q.act (fun e s' => s.Refused e ∧ s.Stays s')
      (fun a s' => s.Stays s' ∧ (s.Faultless → a = q.read s.inventory)) s := by
  have hread : ∀ {β : Type} (call : StoreCall) (g : Inventory → β),
      Leads (do Records.reach call; return g (← get).inventory) (fun e s' => s.Refused e ∧ s.Stays s')
        (fun a s' => s.Stays s' ∧ (s.Faultless → a = g s.inventory)) s := fun call g =>
    (Records.leads_read_stays call g s).mono (fun _ _ => id) fun _ _ h => ⟨h.1, fun _ => h.2⟩
  have hlook : ∀ {β : Type} (call : StoreCall) (f : Fault) (g : Inventory → Option β),
      Leads
        (do
          Records.reach call
          if ← Records.strikes f then return none
          return g (← get).inventory)
        (fun e s' => s.Refused e ∧ s.Stays s')
        (fun a s' => s.Stays s' ∧ (s.Faultless → a = g s.inventory)) s := fun call f g =>
    (Records.leads_look_stays call f g s).mono (fun _ _ => id) fun _ _ h => ⟨h.1, fun hf => h.2.2 (hf f)⟩
  cases q with
  | loadFile id => exact hlook .loadFile .missFile (·.files.get? id)
  | sumAvailable => exact hread .sumAvailable (·.availableKb)
  | findUnlocked time => exact hread .findUnlocked (·.unlockedBefore time)
  | findPending => exact hread .findPending (·.pendingFiles)
  | findReferrers id => exact hread .findReferrers (·.referrers id)
  | loadJob r => exact hlook .loadJob .missJob (·.jobs.get? r)
  | findByStatus status => exact hread .findByStatus (·.jobsWithStatus status)
  | findExpiring after upTo => exact hread .findExpiring (·.expiringBetween after upTo)
  | findUnexpired time => exact hread .findUnexpired (·.unexpiredAt time)
  | snapshot =>
    simp only [act, leads_bind, leads_get, leads_pure]
    exact ⟨.refl s, fun _ => rfl⟩

/-- **Every question is answered from the inventory**, once no call is refused any more. -/
theorem Query.answer_unhindered (q : Query α) (s : Site) :
    q.act.answer s.unhindered = .ok (q.read s.inventory) := by
  have hfaultless := s.faultless_unhindered
  obtain ⟨a, ha, -, hread⟩ :=
    ((q.leads s.unhindered).mono (fun _ _ h => h.1.2 hfaultless) fun _ _ => id).exists_ok
  rw [ha, hread hfaultless]
  rfl

/-! ### Changes -/

/-- The inventory is kept in a file, which is read back as what is in memory. -/
structure Site.KeptAt (path : String) (s : Site) : Prop where
  backed : s.storePath = some path
  agrees : Opening.readInventory s.disk path = .ok s.inventory

theorem Site.KeptAt.stays (h : s.KeptAt path) (hs : s.Stays s') : s'.KeptAt path := by
  rw [hs.eq]
  exact ⟨h.backed, h.agrees⟩

/-- A file that an inventory has been written to is read back as that inventory. -/
theorem Opening.readInventory_of_find? {disk : Disk} {t : Trail} {v : Inventory}
    (h : disk.find? path = some (t, .file (some v.text))) : readInventory disk path = .ok v := by
  have hholds : disk.holds path = true := by rw [Disk.holds, h, Option.isSome_some]
  have hread : disk.read? path = some v.text := by rw [Disk.read?, h]
  rw [readInventory, if_pos hholds, hread]
  dsimp only
  rw [Inventory.ofText?_text]

/-- What a path leads to is read as before if the disk has only grown. -/
theorem Opening.readInventory_of_grows {d d' : Disk} (h : d.Grows d') (holds : d.holds path = true) :
    readInventory d' path = readInventory d path := by
  unfold readInventory Disk.holds Disk.read?
  rw [h.find? holds]

/-- What was refused was not left unwritten. -/
theorem Site.Refused.ne_filesystem {e : Failure} (h : s.Refused e) (detail : Option String) :
    e ≠ .filesystem detail := by
  obtain ⟨⟨_, rfl⟩, -⟩ := h
  exact Failure.noConfusion

/-- **To change an inventory that is kept in a file**: it cannot be written and has changed in memory all
the same, or memory and file agree. -/
theorem Records.leads_change_backed {s₁ : Site} (backed : s.storePath = some path) (h : s.Stays s₁)
    (f : Inventory → Inventory) :
    Leads (change f)
      (fun e s' => e = .filesystem none ∧ s'.inventory = f s.inventory ∧ s.disk.Grows s'.disk)
      (fun _ s' => s'.KeptAt path) s₁ := by
  rw [h.eq]
  simp only [change, persist, leads_bind, leads_modify, leads_get, backed, leads_set]
  have hspec := s.disk.replace_spec path (some (f s.inventory).text)
  -- What the disk is then is of no concern from here on, only what was proved of it.
  generalize s.disk.replace path (some (f s.inventory).text) = replaced at hspec ⊢
  obtain ⟨disk, written⟩ := replaced
  obtain ⟨rfl, t, ht⟩ | ⟨rfl, hgrows⟩ := hspec
  · have hread := Opening.readInventory_of_find? ht
    rw [Bool.not_true, if_neg Bool.false_ne_true, leads_pure]
    exact ⟨rfl, hread⟩
  · rw [Bool.not_false, if_pos rfl, leads_throw]
    exact ⟨rfl, rfl, hgrows⟩

namespace Edit

/-- What is asked for has been done in memory, although it could not be written. -/
def Unwritten (e : Edit α) (s : Site) (err : Failure) (s' : Site) : Prop :=
  err = .filesystem none → s'.inventory = e.result s.inventory ∧ s.disk.Grows s'.disk

variable {s₁ : Site} {x : Act α} {call : StoreCall} {Q : α → Site → Prop}

/-- What is refused has not been left unwritten. -/
theorem leads_reach (e : Edit α) (h : ∀ s₁, s.Stays s₁ → Leads x (e.Unwritten s) Q s₁) :
    Leads (do Records.reach call; x) (e.Unwritten s) Q s := by
  rw [leads_bind]
  refine (Records.leads_reach_stays call s).mono (fun err s' hrefused herr => ?_) fun _ => h
  exact absurd herr (hrefused.1.ne_filesystem none)

theorem leads_change (e : Edit α) (backed : s.storePath = some path) (hs : s.Stays s₁)
    {f : Inventory → Inventory} (hf : f s.inventory = e.result s.inventory) :
    Leads (Records.change f) (e.Unwritten s) (fun _ s' => s.KeptAt path → s'.KeptAt path) s₁ :=
  (Records.leads_change_backed backed hs f).mono (fun _ _ h _ => hf ▸ h.2) fun _ _ h _ => h

/-- **What a change comes to** in an inventory that is kept in a file: if it cannot be written it stays in
memory all the same, and if it succeeds memory and file agree as before. -/
theorem leads (e : Edit α) (backed : s.storePath = some path) :
    Leads e.act (e.Unwritten s) (fun _ s' => s.KeptAt path → s'.KeptAt path) s := by
  cases e with
  | saveFile f => exact leads_reach _ fun s₁ hs => leads_change _ backed hs rfl
  | deleteFile id =>
    refine leads_reach _ fun s₁ hs₁ => ?_
    rw [leads_bind]
    refine (Records.leads_strikes .loseClaim s₁).mono (fun _ _ => False.elim) fun b s₂ h => ?_
    have hs := hs₁.trans h.1
    cases b with
    | false =>
      simp only [Bool.false_eq_true, if_false, leads_bind, leads_get]
      refine (leads_change (.deleteFile id) backed hs rfl).mono (fun _ _ h => h) fun _ s' h => ?_
      rw [leads_pure]
      exact h
    | true =>
      simp only [if_true, leads_pure]
      exact fun h => h.stays hs
  | addReference id r =>
    refine leads_reach _ fun s₁ hs => ?_
    simp only [leads_bind, leads_get]
    split
    · exact leads_change _ backed hs rfl
    · rw [leads_pure]
      exact fun h => h.stays hs
  | removeReference id r =>
    refine leads_reach _ fun s₁ hs => ?_
    simp only [leads_bind, leads_get]
    split
    · next hrefers =>
      rw [show s₁.inventory = s.inventory by rw [hs.eq]] at hrefers
      exact leads_change _ backed hs (if_pos hrefers).symm
    · rw [leads_pure]
      exact fun h => h.stays hs
  | saveJob j => exact leads_reach _ fun s₁ hs => leads_change _ backed hs rfl

end Edit

/-! ### Failed writes -/

/-- **A change that could not be written stays in memory.** Every question is answered from then on as if the
call had been made, so as before only if it would have changed nothing; and a file that was there, at the
path of the inventory or elsewhere, is still what it was. -/
theorem failed_write_stays_in_memory (backed : s.storePath = some path) (e : Edit α)
    (failed : e.act.answer s = .error (.filesystem none)) :
    let s' := e.act.after s
    (∀ (β : Type) (q : Query β),
      q.act.answer s'.unhindered = .ok (q.read (e.result s.inventory))) ∧
    ((∀ (β : Type) (q : Query β), q.act.answer s'.unhindered = q.act.answer s.unhindered) ↔
      e.result s.inventory = s.inventory) ∧
    (∀ t text, s'.disk.at? t = some (.file text) ↔ s.disk.at? t = some (.file text)) ∧
    (s.disk.holds path = true →
      Opening.readInventory s'.disk path = Opening.readInventory s.disk path) := by
  intro s'
  obtain ⟨hinventory, hgrows⟩ := (e.leads backed).of_error failed rfl
  have hanswer : ∀ (β : Type) (q : Query β),
      q.act.answer s'.unhindered = .ok (q.read (e.result s.inventory)) :=
    fun β q => (q.answer_unhindered s').trans (by rw [hinventory])
  refine ⟨hanswer, ⟨fun h => ?_, fun h β q => ?_⟩, fun t text => hgrows.file_iff,
    Opening.readInventory_of_grows hgrows⟩
  · have hsnapshot := (hanswer _ .snapshot).symm.trans (h _ .snapshot)
    rw [Query.answer_unhindered] at hsnapshot
    exact Except.ok.inj hsnapshot
  · rw [hanswer, h, q.answer_unhindered]

/-- A record of a file still to come. -/
def awaitedRecord : FileRecord := .ofEntry ⟨⟨"f"⟩, .spectrum, none, none⟩ 60

/-- A depot that is to keep its inventory in a directory whose name a regular file has. -/
def barredSite : Site where
  settings := { cacheRoot := "cache" }
  storePath := some "a/store.json"
  disk := Disk.place {} ⟨.above 0, ["a"]⟩ (.file (some "x"))
  clock := { hand := 0 }

/-- There, the record of a file cannot be written and yet makes a difference. -/
theorem failed_write_of_one_record :
    (Edit.saveFile awaitedRecord).act.answer barredSite = .error (.filesystem none) ∧
      let s' := (Edit.saveFile awaitedRecord).act.after barredSite
      Query.findPending.act.answer s'.unhindered = .ok [awaitedRecord] ∧
      (¬∀ (β : Type) (q : Query β),
        q.act.answer s'.unhindered = q.act.answer barredSite.unhindered) ∧
      s'.disk.at? ⟨.above 0, ["a"]⟩ = some (.file (some "x")) := by
  have hfailed : (Edit.saveFile awaitedRecord).act.answer barredSite = .error (.filesystem none) := by
    decide +kernel
  obtain ⟨hanswers, hsame, hfiles, -⟩ := failed_write_stays_in_memory rfl (.saveFile awaitedRecord) hfailed
  have hpending : Query.findPending.read ((Edit.saveFile awaitedRecord).result barredSite.inventory) =
      [awaitedRecord] := by decide +kernel
  have hchanged : (Edit.saveFile awaitedRecord).result barredSite.inventory ≠ barredSite.inventory := by
    decide +kernel
  have hbar : barredSite.disk.at? ⟨.above 0, ["a"]⟩ = some (.file (some "x")) := by decide +kernel
  exact ⟨hfailed, hpending ▸ hanswers _ .findPending, (not_congr hsame).2 hchanged, (hfiles _ _).2 hbar⟩

/-- **A record that could not be written is found all the same**: the call that was to keep it has failed, and
the next one answers with it. -/
theorem unwritten_record_is_found :
    (Records.saveFile awaitedRecord).answer barredSite = .error (.filesystem none) ∧
      (Records.loadFile ⟨"f"⟩).answer barredSite = .ok none ∧
      (Records.loadFile ⟨"f"⟩).answer ((Records.saveFile awaitedRecord).after barredSite) =
        .ok (some awaitedRecord) := by
  decide +kernel

/-! ### Opening again -/

/-- What succeeds leaves memory and file agreeing. -/
theorem Call.leads (h : s.KeptAt path) (c : Call) :
    Leads c.act (fun _ _ => True) (fun _ s' => s'.KeptAt path) s := by
  cases c with
  | query q =>
    simp only [act, leads_bind]
    refine (q.leads s).mono (fun _ _ _ => trivial) fun _ s₁ hs => ?_
    rw [leads_pure]
    exact h.stays hs.1
  | edit e =>
    simp only [act, leads_bind]
    refine (e.leads h.backed).mono (fun _ _ _ => trivial) fun _ s₁ hk => ?_
    rw [leads_pure]
    exact hk h

theorem Call.leads_all (calls : List Call) (h : s.KeptAt path) :
    Leads (Call.all calls) (fun _ _ => True) (fun _ s' => s'.KeptAt path) s := by
  induction calls generalizing s with
  | nil =>
    rw [all, leads_pure]
    exact h
  | cons c rest ih =>
    rw [all, leads_bind]
    exact (c.leads h).mono (fun _ _ _ => trivial) fun _ s₁ h₁ => ih h₁

/-- An inventory that has just been opened agrees with its file. -/
theorem Opening.leads_reload (backed : s.storePath = some path) :
    Leads reload (fun _ _ => True) (fun _ s' => s'.KeptAt path) s := by
  simp only [reload, leads_bind, leads_get, backed]
  cases h : readInventory s.disk path with
  | error e =>
    rw [leads_error]
    trivial
  | ok v =>
    rw [leads_ok, leads_set]
    exact ⟨rfl, h⟩

/-- An inventory that agrees with its file is opened again as it is. -/
theorem Opening.leads_reload_of_keptAt (h : s.KeptAt path) :
    Leads reload (fun _ _ => False) (fun _ s' => s' = s.unhindered) s := by
  simp only [reload, leads_bind, leads_get, h.backed, h.agrees, leads_ok, leads_set]
  rw [Site.unhindered, h.backed]

/-- **A restart loses nothing.** An inventory that is kept in a file is opened, and calls are made of it, with
any records. If all of them succeed, then the file is read back as the inventory that is in memory: it can
be opened again, that changes nothing, and every question is answered then as it was before. -/
theorem restart_loses_nothing (backed : s.storePath = some path) (calls : List Call)
    (succeed : (Call.session calls).answer s = .ok ()) :
    let s' := (Call.session calls).after s
    Opening.readInventory s'.disk path = .ok s'.inventory ∧
      Opening.reload.answer s' = .ok () ∧ (Opening.reload.after s').inventory = s'.inventory ∧
      ∀ (β : Type) (q : Query β),
        q.act.answer s'.unhindered = .ok (q.read s'.inventory) ∧
        q.act.answer (Opening.reload.after s') = .ok (q.read s'.inventory) := by
  intro s'
  have hsession : Leads (Call.session calls) (fun _ _ => True) (fun _ t => t.KeptAt path) s := by
    rw [Call.session, leads_bind]
    exact (Opening.leads_reload backed).mono (fun _ _ _ => trivial) fun _ _ h => Call.leads_all calls h
  have hkept : s'.KeptAt path := hsession.of_ok succeed
  obtain ⟨_, hreload, hafter⟩ := (Opening.leads_reload_of_keptAt hkept).exists_ok
  refine ⟨hkept.agrees, hreload, by rw [hafter]; rfl, fun β q => ⟨q.answer_unhindered s', ?_⟩⟩
  rw [hafter, q.answer_unhindered]

/-- A depot that keeps its inventory in a file. -/
def filingSite : Site where
  settings := { cacheRoot := "cache" }
  storePath := some "store.json"
  clock := { hand := 0 }

/-- A file is asked for. -/
def awaitingCalls : List Call :=
  [.query (.loadFile ⟨"f"⟩), .edit (.saveFile awaitedRecord), .edit (.addReference ⟨"f"⟩ ⟨"r"⟩)]

/-- The record of the file, and the reference to it, are read back. -/
theorem restart_with_one_record :
    ∃ v, Opening.readInventory ((Call.session awaitingCalls).after filingSite).disk "store.json" = .ok v ∧
      v.files.get? ⟨"f"⟩ = some awaitedRecord ∧ v.referrers ⟨"f"⟩ = [⟨"r"⟩] := by
  have hsucceed : (Call.session awaitingCalls).answer filingSite = .ok () := by decide +kernel
  obtain ⟨hread, -⟩ := restart_loses_nothing rfl awaitingCalls hsucceed
  exact ⟨_, hread, by decide +kernel, by decide +kernel⟩

end Depot
