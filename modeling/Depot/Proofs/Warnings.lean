import Depot.Proofs.Calls
import Depot.Proofs.Run

/-!
# Warnings of expiries

A job is warned of when a call finds it near its expiry. The depot remembers whom the last call found, and
warns only of those who are new; whoever is not found is forgotten. So a job is warned of each time it
comes into the window, and not only once: it may leave the window and come back, since each call brings a
window of its own and the clock may be set back.

`Watch` follows a course and writes down, for each call that was answered, whether it found a job near its
expiry. The warnings of the job are the places where that becomes true (`risings`).

## Main statements

* `Warnings.leads_warnAll_anywhere` — of whom of a list is warned, in any depot.
* `Warnings.leads_notify_noticed` — whom a call warns of, and whom it remembers.
* `warnings_are_risings` — a job is warned of as often as it comes into the window.
-/

namespace Depot

open Act Time

variable {s s' : Site} {r : RequestId}

/-! ### Near expiries -/

/-- Whether a job is ready and expires within a span from now. -/
def Site.isNear (s : Site) (windowMs : Int) (r : RequestId) : Bool :=
  (s.inventory.jobs.get? r).any fun j => decide (j.status = .ready) &&
    j.expiresAt.any fun e => decide (s.clock.now < e) && decide (e ≤ s.clock.now.addMillis windowMs)

/-- Whether an entry of the log is a warning of a job. -/
def Happening.warns (r : RequestId) : Happening → Bool
  | .told (.expiringSoon r' _) => decide (r' = r)
  | _ => false

/-- How often a job has been warned of. -/
def Site.warnings (s : Site) (r : RequestId) : Nat := s.log.countP (·.warns r)

theorem Site.warnings_append {more : List Happening} (log : s'.log = s.log ++ more) (r : RequestId) :
    s'.warnings r = s.warnings r + more.countP (·.warns r) := by
  rw [warnings, log, List.countP_append, warnings]

/-! ### Whom a call warns of -/

/-- The warnings of the jobs of a list. -/
def alertsOf (l : List Job) : List Happening :=
  l.filterMap fun j => j.expiresAt.map fun e => .told (.expiringSoon j.requestId e)

theorem countP_alertsOf {r : RequestId} {l : List Job} (expires : ∀ j ∈ l, j.expiresAt.isSome = true) :
    (alertsOf l).countP (·.warns r) = l.countP fun j => j.requestId = r := by
  induction l with
  | nil => rfl
  | cons j l ih =>
    obtain ⟨e, he⟩ := Option.isSome_iff_exists.1 (expires j (.head _))
    have hrest := ih fun k hk => expires k (.tail _ hk)
    rw [alertsOf, List.filterMap_cons, he]
    rw [alertsOf] at hrest
    simp only [Option.map_some, List.countP_cons, hrest]
    rfl

theorem count_requestId (l : List Job) (r : RequestId) :
    (l.map Job.requestId).count r = l.countP fun j => j.requestId = r := by
  rw [List.count, List.countP_map]
  rfl

/-- What is left after a call for warnings. -/
structure Noticed (windowMs : Int) (s s' : Site) : Prop where
  /-- Whom it found is remembered, and nobody else. -/
  warned : ∀ r, s'.warned.contains r = s.isNear windowMs r
  /-- Those are warned of who were not remembered. -/
  warnings : ∀ r, s'.warnings r =
    s.warnings r + (s.isNear windowMs r && !s.warned.contains r).toNat

namespace Warnings

/-- A job is remembered and warned of. -/
def remind (s : Site) (r : RequestId) (expiry : Instant) : Site :=
  { s with warned := s.warned.add r, log := s.log ++ [.told (.expiringSoon r expiry)] }

theorem contains_remind (s : Site) (r r' : RequestId) (expiry : Instant) :
    (remind s r expiry).warned.contains r' = (decide (r = r') || s.warned.contains r') := by
  rw [remind, Bool.eq_iff_iff, KeySet.contains_add, Bool.or_eq_true, decide_eq_true_iff, eq_comm]

/-- Of a list those are warned of who are not remembered, in its order, and they are remembered then. -/
theorem leads_warnAll_anywhere : ∀ (l : List Job) (s : Site), (l.map Job.requestId).Nodup →
    (∀ j ∈ l, j.expiresAt.isSome = true) →
    Leads (warnAll l) (fun _ _ => False)
      (fun n s' => n = (l.filter fun j => !s.warned.contains j.requestId).length ∧
        s'.log = s.log ++ alertsOf (l.filter fun j => !s.warned.contains j.requestId) ∧
        ∀ r, s'.warned.contains r = (l.any (fun j => j.requestId = r) || s.warned.contains r)) s
  | [], s, hnodup, hexpires => by
    rw [warnAll, leads_pure]
    exact ⟨rfl, (List.append_nil _).symm, fun _ => rfl⟩
  | j :: rest, s, hnodup, hexpires => by
    obtain ⟨hother, hrest⟩ := List.nodup_cons.1 hnodup
    have hnext := fun s₁ => leads_warnAll_anywhere rest s₁ hrest fun k hk => hexpires k (.tail _ hk)
    obtain ⟨expiry, hexpiry⟩ := Option.isSome_iff_exists.1 (hexpires j (.head _))
    simp only [warnAll, hexpiry, leads_bind, leads_get]
    refine leads_ite.2 ⟨fun hold => ?_, fun hnew => ?_⟩
    · refine (hnext s).mono (fun _ _ hfalse => hfalse) ?_
      rintro n s' ⟨hn, hlog, hwarned⟩
      rw [List.filter_cons_of_neg (by simp [hold])]
      refine ⟨hn, hlog, fun r => ?_⟩
      rw [hwarned, List.any_cons]
      by_cases hr : j.requestId = r
      · subst hr
        simp [hold]
      · simp [hr]
    · simp only [leads_bind, leads_modify, leads_pure]
      refine (leads_tell_anywhere _ _).mono (fun _ _ hfalse => hfalse) ?_
      rintro _ s₁ hs₁
      have hreminded : s₁.warned = (remind s j.requestId expiry).warned ∧
          s₁.log = s.log ++ [.told (.expiringSoon j.requestId expiry)] := by
        obtain ⟨_, _, rfl⟩ := hs₁
        exact ⟨rfl, rfl⟩
      -- No other job of the list has the same name, so it makes no difference to them.
      have hsame : (rest.filter fun k => !s₁.warned.contains k.requestId) =
          rest.filter fun k => !s.warned.contains k.requestId := by
        refine List.filter_congr fun k hk => ?_
        have hne : j.requestId ≠ k.requestId := fun heq => hother (heq ▸ List.mem_map_of_mem hk)
        rw [hreminded.1, contains_remind, decide_eq_false hne, Bool.false_or]
      refine (hnext s₁).mono (fun _ _ hfalse => hfalse) ?_
      rintro n s' ⟨hn, hlog, hwarned⟩
      rw [hsame] at hn hlog
      rw [List.filter_cons_of_pos (by simp [hnew])]
      refine ⟨by rw [hn, List.length_cons], ?_, fun r => ?_⟩
      · rw [hlog, hreminded.2, alertsOf, alertsOf, List.filterMap_cons, hexpiry, List.append_assoc]
        rfl
      · rw [hwarned, hreminded.1, contains_remind, List.any_cons, Bool.or_left_comm, Bool.or_assoc]

/-- Everybody on the list is remembered, and those are warned of who were not before. -/
theorem leads_warnAll_each (l : List Job) (nodup : (l.map Job.requestId).Nodup)
    (expires : ∀ j ∈ l, j.expiresAt.isSome = true) (s : Site) :
    Leads (warnAll l) (fun _ _ => False)
      (fun _ s' => ∀ r,
        s'.warned.contains r = (l.any (fun j => j.requestId = r) || s.warned.contains r) ∧
        s'.warnings r =
          s.warnings r + (l.any (fun j => j.requestId = r) && !s.warned.contains r).toNat) s := by
  refine (leads_warnAll_anywhere l s nodup expires).mono (fun _ _ hfalse => hfalse) ?_
  rintro n s' ⟨-, hlog, hwarned⟩ r
  have hfresh := nodup.sublist (List.filter_sublist (p := fun j => !s.warned.contains j.requestId).map _)
  have hlisted : r ∈ (l.filter fun j => !s.warned.contains j.requestId).map Job.requestId ↔
      (l.any (fun j => j.requestId = r) && !s.warned.contains r) = true := by
    simp only [List.mem_map, List.mem_filter, List.any_eq_true, Bool.and_eq_true, decide_eq_true_eq]
    constructor
    · rintro ⟨j, ⟨hj, hnew⟩, rfl⟩
      exact ⟨⟨j, hj, rfl⟩, hnew⟩
    · rintro ⟨⟨j, hj, rfl⟩, hnew⟩
      exact ⟨j, ⟨hj, hnew⟩, rfl⟩
  refine ⟨hwarned r, ?_⟩
  rw [Site.warnings_append hlog, countP_alertsOf fun j hj => expires j (List.mem_of_mem_filter hj),
    ← count_requestId, hfresh.count, if_congr hlisted rfl rfl]
  cases l.any (fun j => j.requestId = r) && !s.warned.contains r <;> rfl

/-- Jobs found near their expiry: each is listed once, and no other is near. -/
structure ListsNear (s : Site) (windowMs : Int) (l : List Job) : Prop where
  nodup : (l.map Job.requestId).Nodup
  expires : ∀ j ∈ l, j.expiresAt.isSome = true
  near : ∀ r, l.any (fun j => j.requestId = r) = s.isNear windowMs r

theorem listsNear_of_named (hn : s.inventory.Named) (windowMs : Int) :
    ListsNear s windowMs (sortBy expiryOrder ((s.inventory.expiringBetween s.clock.now
      (s.clock.now.addMillis windowMs)).filter fun j => j.status = .ready)) := by
  have hlists := hn.listsJobs (fun j => j.expiresAt.any fun e =>
    decide (s.clock.now < e) && decide (e ≤ s.clock.now.addMillis windowMs)) Inventory.creationOrder
  generalize hl : sortBy expiryOrder _ = l
  have hmem : ∀ j, j ∈ l ↔ j ∈ s.inventory.jobs.values ∧ j.status = .ready ∧
      ∃ e, j.expiresAt = some e ∧ s.clock.now < e ∧ e ≤ s.clock.now.addMillis windowMs := by
    intro j
    rw [← hl, mem_sortBy, List.mem_filter, Inventory.mem_expiringBetween, decide_eq_true_iff]
    rw [and_assoc, and_comm (a := ∃ e, _)]
  refine ⟨?_, fun j hj => ?_, fun r => ?_⟩
  · rw [← hl, ((sortBy_perm _).map _).nodup_iff]
    exact List.Nodup.sublist (List.filter_sublist.map _) hlists.nodup
  · obtain ⟨-, -, e, he, -⟩ := (hmem j).1 hj
    rw [he, Option.isSome_some]
  · rw [Bool.eq_iff_iff, List.any_eq_true, Site.isNear, Option.any_eq_true]
    simp only [hmem, decide_eq_true_eq, Bool.and_eq_true, Option.any_eq_true]
    constructor
    · rintro ⟨j, ⟨hvalue, hready, e, he⟩, hr⟩
      obtain ⟨r', hr'⟩ := Table.mem_values.1 hvalue
      obtain rfl : r' = r := (hn.jobs r' j hr').symm.trans hr
      exact ⟨j, hr', hready, e, he⟩
    · rintro ⟨j, hj, hready, e, he⟩
      exact ⟨j, ⟨Table.mem_values.2 ⟨r, hj⟩, hready, e, he⟩, hn.jobs r j hj⟩

theorem leads_nearExpiry (hn : s.inventory.Named) (windowMs : Int) :
    Leads (nearExpiry windowMs) (fun _ s' => Aside s s')
      (fun l s' => Aside s s' ∧ ListsNear s windowMs l) s := by
  simp only [nearExpiry, leads_bind, leads_now, leads_pure]
  refine (Records.leads_findExpiring _ _ s).mono (fun _ _ hr => hr.2) ?_
  rintro found s₁ ⟨rfl, ha⟩
  exact ⟨ha, listsNear_of_named hn windowMs⟩

/-- Whoever is not on the list is remembered no longer. -/
theorem leads_forgetOthers (l : List Job) {E : Failure → Site → Prop} :
    Leads (forgetOthers l) E
      (fun _ s' => (∃ warned, s' = { s with warned := warned }) ∧
        ∀ r, s'.warned.contains r = (l.any (fun j => j.requestId = r) && s.warned.contains r)) s := by
  rw [forgetOthers, leads_modify]
  refine ⟨⟨_, rfl⟩, fun r => ?_⟩
  rw [Bool.eq_iff_iff, Bool.and_eq_true, Table.contains_eq_true, Table.contains_eq_true]
  simp only [Table.get?_eq_some_iff, List.mem_filter]
  rw [← exists_and_left]
  exact exists_congr fun _ => and_comm

/-- **Whom a call warns of**, unless it is refused. -/
theorem leads_notify_noticed (hn : s.inventory.Named) (windowMs : Int) :
    Leads (notify windowMs) (fun _ s' => Aside s s') (fun _ s' => Noticed windowMs s s') s := by
  simp only [notify, leads_bind]
  refine (leads_nearExpiry hn windowMs).mono (fun _ _ ha => ha) ?_
  rintro l s₁ ⟨ha, hl⟩
  have hsame : s₁.warned = s.warned ∧ ∀ r, s₁.warnings r = s.warnings r := by
    cases ha
    exact ⟨rfl, fun _ => rfl⟩
  refine (leads_forgetOthers l).mono (fun _ _ hr => hr) ?_
  rintro _ _ ⟨⟨warned, rfl⟩, hremembered⟩
  refine (leads_warnAll_each l hl.nodup hl.expires _).mono (fun _ _ hfalse => hfalse.elim)
    fun _ s' heach => ⟨fun r => ?_, fun r => ?_⟩
  · rw [(heach r).1, hremembered, hl.near]
    cases s.isNear windowMs r <;> rfl
  · rw [(heach r).2, hremembered, hl.near, hsame.1, Site.warnings, ← hsame.2 r, Site.warnings]
    cases s.isNear windowMs r <;> rfl

end Warnings

/-! ### What warns of nothing -/

/-- Nobody is warned, and nobody who was is forgotten. -/
structure Site.Unwarned (s s' : Site) : Prop where
  warned : s'.warned = s.warned
  warnings : ∀ r, s'.warnings r = s.warnings r

namespace Site.Unwarned

theorem refl (s : Site) : s.Unwarned s := ⟨rfl, fun _ => rfl⟩

theorem trans {s'' : Site} (h : s.Unwarned s') (h' : s'.Unwarned s'') : s.Unwarned s'' :=
  ⟨h'.warned.trans h.warned, fun r => (h'.warnings r).trans (h.warnings r)⟩

/-- Something is logged that is no warning. -/
theorem logged {h : Happening} (warned : s'.warned = s.warned) (log : s'.log = s.log ++ [h])
    (quiet : ∀ r, h.warns r = false) : s.Unwarned s' := by
  refine ⟨warned, fun r => ?_⟩
  rw [warnings_append log, List.countP_singleton, if_neg (by rw [quiet]; exact Bool.false_ne_true),
    Nat.add_zero]

end Site.Unwarned

theorem Aside.unwarned (h : Aside s s') : s.Unwarned s' := by
  cases h
  exact ⟨rfl, fun _ => rfl⟩

theorem Steady.unwarned (c : Steady s s') : s.Unwarned s' := by
  cases c with
  | file c =>
    cases c with
    | evict e =>
      cases e with
      | aside a => exact a.unwarned
      | evicted => exact .logged rfl rfl fun _ => rfl
    | queued => exact .logged rfl rfl fun _ => rfl
    | attached | detached | unlocked | strayed | extended => exact ⟨rfl, fun _ => rfl⟩
  | transfer c =>
    cases c with
    | moved tasks log same calls =>
      refine ⟨rfl, fun r => (Site.warnings_append rfl r).trans ?_⟩
      rcases calls with rfl | ⟨f, -, time, source, rfl⟩ <;> rfl
    | arrived | givenUp | setBack | brokenOff => exact .logged rfl rfl fun _ => rfl
  | job c => cases c <;> exact .logged rfl rfl fun _ => rfl
  | clocked | duties | spoiled => exact ⟨rfl, fun _ => rfl⟩

theorem Errand.unwarned (e : Errand s s') (h : s.Sound) : s.Unwarned s' := by
  have hsteady := e.steady h
  clear e
  induction hsteady with
  | refl => exact .refl s
  | tail _ c ih => exact ih.trans c.unwarned

theorem Founding.unwarned {r : RequestId} (c : Founding r s s') : s.Unwarned s' := by
  cases c with
  | packaged => exact .logged rfl rfl fun _ => rfl
  | created | overwritten => exact ⟨rfl, fun _ => rfl⟩

/-! ### What calls have seen -/

/-- **A course with the calls for warnings in it**: for each that was answered, whether the job was near its
expiry then. -/
inductive Watch (r : RequestId) (s : Site) : List Bool → Site → Prop
  | nil : Watch r s [] s
  | errand {l : List Bool} {s₁ s₂ : Site} (w : Watch r s l s₁) (e : Errand s₁ s₂) : Watch r s l s₂
  | founding {l : List Bool} {s₁ s₂ : Site} (w : Watch r s l s₁) {r' : RequestId}
      (c : Founding r' s₁ s₂) : Watch r s l s₂
  | refused {l : List Bool} {s₁ : Site} (w : Watch r s l s₁) (windowMs : Int) {e : Failure}
      (answer : (Warnings.notify windowMs).answer s₁ = .error e) :
      Watch r s l ((Warnings.notify windowMs).after s₁)
  | answered {l : List Bool} {s₁ : Site} (w : Watch r s l s₁) (windowMs : Int) {n : Nat}
      (answer : (Warnings.notify windowMs).answer s₁ = .ok n) :
      Watch r s (l ++ [s₁.isNear windowMs r]) ((Warnings.notify windowMs).after s₁)

/-- How often something becomes true that was, or was not, before. -/
def risings (before : Bool) : List Bool → Nat
  | [] => 0
  | b :: rest => (b && !before).toNat + risings b rest

theorem risings_concat (c : Bool) : ∀ (before : Bool) (l : List Bool),
    risings before (l ++ [c]) = risings before l + (c && !l.getLastD before).toNat
  | before, [] => by simp [risings]
  | before, b :: rest => by
    rw [List.cons_append, risings, risings, risings_concat c b rest, List.getLastD_cons, Nat.add_assoc]

/-- What never becomes false again becomes true once at most. -/
theorem risings_le : ∀ {before : Bool} {l : List Bool}, (before :: l).Pairwise (· ≤ ·) →
    risings before l ≤ (!before).toNat
  | before, [], _ => Nat.zero_le _
  | before, b :: rest, h => by
    have hstep : before ≤ b := (List.pairwise_cons.1 h).1 b (.head _)
    have hrest := risings_le (List.pairwise_cons.1 h).2
    cases before with
    | false => cases b <;> simpa [risings] using hrest
    | true =>
      obtain rfl : b = true := top_le_iff.1 hstep
      simpa [risings] using hrest

/-- Every undertaking can be followed. -/
theorem Undertaking.watched (u : Undertaking s s') {s₀ : Site} {l : List Bool} (w : Watch r s₀ l s) :
    ∃ l, Watch r s₀ l s' := by
  cases u with
  | founding r' c => exact ⟨l, w.founding c⟩
  | affair a =>
    cases a with
    | errand e => exact ⟨l, w.errand e⟩
    | notified windowMs =>
      cases hanswer : (Warnings.notify windowMs).answer s with
      | error e => exact ⟨l, w.refused windowMs hanswer⟩
      | ok n => exact ⟨_, w.answered windowMs hanswer⟩

namespace Watch

variable {l : List Bool}

theorem undertakings (w : Watch r s l s') : Undertakings s s' := by
  induction w with
  | nil => exact .refl
  | errand _ e ih => exact ih.tail (.affair (.errand e))
  | founding _ c ih => exact ih.tail (.founding _ c)
  | refused _ windowMs _ ih | answered _ windowMs _ ih => exact ih.tail (.affair (.notified windowMs))

/-- **The depot remembers what the last call saw**, and has warned as often as that became true. -/
theorem warnings_eq (w : Watch r s l s') (h : s.Sound) (unwarned : s.warned.contains r = false)
    (silent : s.warnings r = 0) :
    s'.warned.contains r = l.getLastD false ∧ s'.warnings r = risings false l := by
  induction w with
  | nil => exact ⟨unwarned, silent⟩
  | errand w e ih =>
    have hsame := e.unwarned (w.undertakings.sound h)
    rw [hsame.warned, hsame.warnings]
    exact ih
  | founding w c ih =>
    rw [c.unwarned.warned, c.unwarned.warnings]
    exact ih
  | refused w windowMs answer ih =>
    have h₁ : Site.Sound _ := w.undertakings.sound h
    have hsame := Aside.unwarned
      ((Warnings.leads_notify_noticed h₁.balanced.named windowMs).of_error answer)
    rw [hsame.warned, hsame.warnings]
    exact ih
  | @answered l s₁ w windowMs n answer ih =>
    have h₁ : s₁.Sound := w.undertakings.sound h
    have hnoticed := (Warnings.leads_notify_noticed h₁.balanced.named windowMs).of_ok answer
    refine ⟨?_, ?_⟩
    · rw [hnoticed.warned, List.getLastD_concat]
    · rw [hnoticed.warnings, risings_concat, ih.1, ih.2]

end Watch

/-! ### Runs -/

/-- **A job is warned of as often as it comes into the window.** In every run that begins with a depot just
opened, which has warned of nobody, and that does not open it again: the calls for warnings and what they see
of a job can be followed, and however they are, the job has been warned of as often as it was near its expiry
at a call and had not been at the one before. If it never leaves the window, it is warned of once at most. -/
theorem warnings_are_risings (h : s.Secluded) (ho : s.Opened) (hn : s.inventory.Named)
    (unwarned : s.warned = .empty) (silent : s.log = []) (steps : List Step)
    (stays : ∀ settings, .restart settings ∉ steps) (r : RequestId) :
    (∃ l, Watch r s l (s.run steps)) ∧
      ∀ l, Watch r s l (s.run steps) → (s.run steps).warnings r = risings false l ∧
        (l.Pairwise (· ≤ ·) → (s.run steps).warnings r ≤ 1) := by
  have hsound : s.Sound := ⟨h, ho.balanced hn⟩
  refine ⟨?_, fun l w => ?_⟩
  · refine @Site.run_induction_of_undertaking s (fun s' => ∃ l, Watch r s l s') (fun _ => False)
      ?_ ?_ hsound ⟨[], .nil⟩ steps stays
    · exact fun _ u ⟨_, w⟩ => u.watched w
    · exact fun _ hfalse => hfalse.elim
  · have hwarnings := (w.warnings_eq hsound (by rw [unwarned]; rfl) (by rw [Site.warnings, silent]; rfl)).2
    refine ⟨hwarnings, fun hstays => hwarnings ▸ ?_⟩
    exact risings_le (List.pairwise_cons.2 ⟨fun b _ => Bool.false_le b, hstays⟩)

/-- A job is ready at once and expires after a week. A call sees it near its expiry, another with no window
does not, and a third does again. -/
def narrowedRun : List Step :=
  [.create ⟨"j"⟩ .web [], .notify 3600000000, .notify 0, .notify 3600000000]

theorem risings_of_narrowedRun :
    ∃ l, Watch ⟨"j"⟩ (Site.blank { cacheRoot := "cache" }) l
      ((Site.blank { cacheRoot := "cache" }).run narrowedRun) ∧ risings false l = 2 := by
  have hwarnings : ((Site.blank { cacheRoot := "cache" }).run narrowedRun).warnings ⟨"j"⟩ = 2 := by
    decide +kernel
  obtain ⟨⟨l, w⟩, hall⟩ := warnings_are_risings (Site.secluded_blank { cacheRoot := "cache" })
    (Site.opened_blank _) .fresh rfl rfl narrowedRun (fun _ hmem => by simp [narrowedRun] at hmem) ⟨"j"⟩
  exact ⟨l, w, (hall l w).1.symm.trans hwarnings⟩

/-- **A job may be warned of twice**, by the same depot and without being opened again. -/
theorem job_is_warned_of_twice :
    ((Site.blank { cacheRoot := "cache" }).run narrowedRun).warnings ⟨"j"⟩ = 2 := by decide +kernel

end Depot
