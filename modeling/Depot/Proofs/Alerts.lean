import Depot.Proofs.Expiry
import Depot.Proofs.Warnings

/-!
# Who is warned by a series of calls

Calls for warnings are made one after the other, each with a window of its own. What happens to the depot
between them is of no concern, but that it remembers whom it remembered: jobs may come and go, the clock may
be set, those who are warned may change other jobs, and calls may be refused. Each call that is answered then
warns of the jobs that are near their expiry and were not so at the call before, the soonest first.

The window ends with the calendar. Its last second may be followed by a leap second; a job that expires in
it is never near its expiry, however long the window is.

## Main statements

* `Instant.le_addMillis_iff` — which moments come before the end of a window.
* `Warnings.leads_notify_alerts` — whom a call warns of, in any depot.
* `warnings_are_new_near_expiries` — whom each call of a series warns of.
* `leap_second_is_never_near` — a ready job of which nobody is warned.
-/

namespace Depot

open Act Time

/-! ### The end of a window -/

namespace Time

theorem Instant.addMillis?_nanos {i j : Instant} {millis : Int} (h : i.addMillis? millis = some j) :
    j.nanos < secondNanos := by
  unfold addMillis? ofParts? at h
  split at h
  · cases h
    have hmod := Int.emod_lt_of_pos (↑i.nanos + millis * 1000000) (by decide : (0 : Int) < secondNanos)
    have hnonneg := Int.emod_nonneg (↑i.nanos + millis * 1000000) (by decide : (secondNanos : Int) ≠ 0)
    show ((↑i.nanos + millis * 1000000) % (secondNanos : Int)).toNat < secondNanos
    omega
  · cases h

/-- A moment that is not in a leap second is no later than the last nanosecond of the calendar. -/
theorem Instant.le_latest {i : Instant} (h : i.nanos < secondNanos) : i ≤ latest := by
  have hseconds := i.inRange.2
  simp only [le_def, rank, latest, secondNanos] at h ⊢
  omega

theorem Instant.addMillis_nanos (i : Instant) (millis : Int) :
    (i.addMillis millis).nanos < secondNanos := by
  unfold addMillis
  cases h : i.addMillis? millis with
  | none => decide
  | some j => exact addMillis?_nanos h

/-- The clock shows no leap second. -/
theorem Clock.now_nanos (c : Clock) : c.now.nanos < secondNanos := by
  have hhand : c.handReading.nanos < secondNanos := by
    unfold handReading
    cases h : Instant.ofMillis? c.hand.toInt with
    | none => decide
    | some i =>
      unfold Instant.ofMillis? Instant.ofParts? at h
      split at h
      · cases h
        show (c.hand.toInt % 1000).toNat * 1000000 < secondNanos
        unfold secondNanos
        omega
      · cases h
  unfold now
  split
  · exact Instant.addMillis_nanos _ _
  · exact hhand

/-- The rank of the moment so many milliseconds later, as if the calendar did not end. -/
def Instant.rankAfter (i : Instant) (millis : Int) : Int :=
  (i.seconds + (i.nanos + millis * 1000000) / secondNanos) * 2000000000 +
    (i.nanos + millis * 1000000) % secondNanos

theorem Instant.rankAfter_mono {i j : Instant} (hi : i.nanos < secondNanos) (hj : j.nanos < secondNanos)
    (h : i ≤ j) (millis : Int) : i.rankAfter millis ≤ j.rankAfter millis := by
  simp only [le_def, rank, rankAfter, secondNanos] at *
  omega

/-- **The end of a window**: what comes before it comes before it as if the calendar did not end, and is not in
the leap second at the end of the calendar. -/
theorem Instant.le_addMillis_iff {i e : Instant} {millis : Int} (forward : 0 ≤ millis) :
    e ≤ i.addMillis millis ↔ e.rank ≤ i.rankAfter millis ∧ e ≤ latest := by
  have hmod := Int.emod_lt_of_pos (↑i.nanos + millis * 1000000) (by decide : (0 : Int) < secondNanos)
  have hnonneg := Int.emod_nonneg (↑i.nanos + millis * 1000000) (by decide : (secondNanos : Int) ≠ 0)
  have hdiv : 0 ≤ (↑i.nanos + millis * 1000000) / (secondNanos : Int) :=
    Int.ediv_nonneg (by omega) (by decide)
  have hearliest := i.inRange.1
  unfold rankAfter
  cases h : i.addMillis? millis with
  | some j =>
    have hj : i.addMillis millis = j := by rw [addMillis, h, Option.getD_some]
    have hlatest := le_latest (addMillis?_nanos h)
    have hrank : j.rank = (i.seconds + (i.nanos + millis * 1000000) / secondNanos) * 2000000000 +
        (i.nanos + millis * 1000000) % secondNanos := by
      unfold addMillis? ofParts? at h
      split at h
      · cases h
        simp only [rank, Int.toNat_of_nonneg hnonneg]
      · cases h
    rw [hj, ← hrank]
    exact ⟨fun hle => ⟨hle, Int.le_trans hle hlatest⟩, fun hle => hle.1⟩
  | none =>
    have hj : i.addMillis millis = latest := by rw [addMillis, h, Option.getD_none]
    have hbeyond : latestSecond < i.seconds + (i.nanos + millis * 1000000) / secondNanos := by
      unfold addMillis? ofParts? at h
      split at h
      · cases h
      · next hrange =>
        by_contra hwithin
        exact hrange ⟨⟨by omega, by omega⟩, .inl (by omega)⟩
    have hseconds := e.inRange.2
    have hnanos := e.nanos_lt
    rw [hj, and_iff_right_of_imp]
    intro _
    unfold rank
    omega

end Time

variable {s s' : Site} {windowMs : Int}

/-! ### Who is found -/

/-- A stored job that is ready and expires within a window from now, as if the calendar did not end. -/
structure Site.IsClose (s : Site) (windowMs : Int) (j : Job) : Prop where
  stored : s.inventory.jobs.get? j.requestId = some j
  ready : j.status = .ready
  soon : ∃ e, j.expiresAt = some e ∧ s.clock.now < e ∧ e.rank ≤ s.clock.now.rankAfter windowMs

/-- A job that does not expire in the leap second at the end of the calendar. -/
def Job.IsDated (j : Job) : Prop := ∀ e, j.expiresAt = some e → e ≤ Instant.latest

theorem Site.isNear_iff (hn : s.inventory.Named) (forward : 0 ≤ windowMs) {r : RequestId} :
    s.isNear windowMs r = true ↔ ∃ j, s.IsClose windowMs j ∧ j.IsDated ∧ j.requestId = r := by
  rw [isNear, Option.any_eq_true]
  simp only [Bool.and_eq_true, Option.any_eq_true, decide_eq_true_eq, Instant.le_addMillis_iff forward]
  constructor
  · rintro ⟨j, hj, hready, e, he, hnow, hrank, hlatest⟩
    have hr := hn.jobs r j hj
    subst hr
    refine ⟨j, ⟨hj, hready, e, he, hnow, hrank⟩, fun e' he' => ?_, rfl⟩
    rw [he] at he'
    cases he'
    exact hlatest
  · rintro ⟨j, ⟨hj, hready, e, he, hnow, hrank⟩, hdated, rfl⟩
    exact ⟨j, hj, hready, e, he, hnow, hrank, hdated e he⟩

/-! ### Whom a call warns of -/

instance : Std.TransCmp Warnings.expiryOrder :=
  inferInstanceAs (Std.TransCmp (compareLex (compareOn Job.expiresAt) (compareOn Job.requestId)))

/-- Stored jobs that are strictly in order have different names. -/
theorem nodup_of_expiryOrder {l : List Job}
    (stored : ∀ j ∈ l, s.inventory.jobs.get? j.requestId = some j)
    (ordered : l.Pairwise fun i j => Warnings.expiryOrder i j = .lt) : (l.map Job.requestId).Nodup := by
  rw [List.nodup_iff_pairwise_ne, List.pairwise_map]
  refine ordered.imp_of_mem fun {i j} hi hj hlt heq => ?_
  have hi' := stored i hi
  rw [heq, stored j hj] at hi'
  cases hi'
  have hself : Warnings.expiryOrder i i = .eq := Std.ReflCmp.compare_self
  rw [hself] at hlt
  cases hlt

/-- **Whom a call has warned of.** -/
structure Site.Alerts (s : Site) (windowMs : Int) (l : List Job) (s' : Site) : Prop where
  members : ∀ j, j ∈ l ↔ s.IsClose windowMs j ∧ j.IsDated ∧ s.warned.contains j.requestId = false
  ordered : l.Pairwise fun i j => Warnings.expiryOrder i j = .lt
  log : s'.log = s.log ++ alertsOf l
  warned : ∀ r, s'.warned.contains r = s.isNear windowMs r

namespace Warnings

/-- The jobs that a call finds. -/
def found (s : Site) (windowMs : Int) : List Job :=
  sortBy expiryOrder ((s.inventory.expiringBetween s.clock.now
    (s.clock.now.addMillis windowMs)).filter fun j => j.status = .ready)

theorem mem_found (hn : s.inventory.Named) (forward : 0 ≤ windowMs) {j : Job} :
    j ∈ found s windowMs ↔ s.IsClose windowMs j ∧ j.IsDated := by
  have hstored : j ∈ s.inventory.jobs.values ↔ s.inventory.jobs.get? j.requestId = some j := by
    rw [Table.mem_values]
    refine ⟨fun ⟨r, hr⟩ => ?_, fun h => ⟨_, h⟩⟩
    rwa [hn.jobs r j hr]
  rw [found, mem_sortBy, List.mem_filter, Inventory.mem_expiringBetween, decide_eq_true_iff, hstored]
  simp only [Instant.le_addMillis_iff forward]
  constructor
  · rintro ⟨⟨hj, e, he, hnow, hrank, hlatest⟩, hready⟩
    refine ⟨⟨hj, hready, e, he, hnow, hrank⟩, fun e' he' => ?_⟩
    rw [he] at he'
    cases he'
    exact hlatest
  · rintro ⟨⟨hj, hready, e, he, hnow, hrank⟩, hdated⟩
    exact ⟨⟨hj, e, he, hnow, hrank, hdated e he⟩, hready⟩

/-- The jobs that a call finds come one after the other: none has the place of another. -/
theorem pairwise_found (hn : s.inventory.Named) (windowMs : Int) :
    (found s windowMs).Pairwise fun i j => expiryOrder i j = .lt := by
  refine pairwise_lt_of_nodup (pairwise_sortBy _) (listsNear_of_named hn windowMs).nodup fun i j hij => ?_
  have hid : compareOn Job.requestId i j = .eq := (compareLex_eq_eq.1 hij).2
  exact Std.LawfulEqOrd.eq_of_compare hid

/-- **Whom a call warns of**, in any depot: it is refused and nothing happens, or it warns of those who are near
their expiry and are not remembered. -/
theorem leads_notify_alerts (hn : s.inventory.Named) (forward : 0 ≤ windowMs) :
    Leads (notify windowMs) (fun _ s' => s.refuses .findExpiring 0 = true ∧ s.Stays s')
      (fun n s' => s.refuses .findExpiring 0 = false ∧ ∃ l, n = l.length ∧ s.Alerts windowMs l s') s := by
  simp only [notify, nearExpiry, Records.findExpiring, leads_bind, leads_now]
  refine (Records.leads_reach_spends .findExpiring s).mono (fun _ _ hr => hr) ?_
  rintro _ s₁ ⟨hgoes, hspends⟩
  simp only [leads_get, leads_pure]
  rw [hspends.stays.eq]
  have hl := listsNear_of_named hn windowMs
  refine (leads_forgetOthers (found s windowMs)).mono (fun _ _ hr => hr) ?_
  rintro _ _ ⟨⟨warned, rfl⟩, hremembered⟩
  refine (leads_warnAll_anywhere (found s windowMs) _ hl.nodup hl.expires).mono
    (fun _ _ hfalse => hfalse.elim) ?_
  rintro n s' ⟨hn', hlog, hwarned⟩
  have hfresh : ((found s windowMs).filter fun j => !warned.contains j.requestId) =
      (found s windowMs).filter fun j => !s.warned.contains j.requestId := by
    refine List.filter_congr fun j hj => ?_
    have hany : (found s windowMs).any (fun k => k.requestId = j.requestId) = true :=
      List.any_eq_true.2 ⟨j, hj, by simp⟩
    rw [hremembered, hany, Bool.true_and]
  dsimp only at hn' hlog hwarned hremembered
  rw [hfresh] at hn' hlog
  refine ⟨hgoes, _, hn', fun j => ?_, (pairwise_found hn windowMs).sublist List.filter_sublist, hlog,
    fun r => ?_⟩
  · rw [List.mem_filter, mem_found hn forward, and_assoc, Bool.not_eq_true']
  · have hnear : (found s windowMs).any (fun j => j.requestId = r) = s.isNear windowMs r := hl.near r
    rw [hwarned, hremembered, hnear]
    cases s.isNear windowMs r <;> rfl

end Warnings

/-! ### Series of calls -/

/-- **A series of calls for warnings**, each in a depot of its own with a window of its own. Nobody is remembered
at the first, and at every other those who were remembered after the one before. -/
structure Series (s : ℕ → Site) (windowMs : ℕ → Int) : Prop where
  fresh : (s 0).warned = .empty
  carried : ∀ k, (s (k + 1)).warned = ((Warnings.notify (windowMs k)).after (s k)).warned
  named : ∀ k, (s k).inventory.Named
  forward : ∀ k, 0 ≤ windowMs k

namespace Series

variable {s : ℕ → Site} {windowMs : ℕ → Int} {r : RequestId}

/-- Whether a job is near its expiry at a call. -/
def Near (s : ℕ → Site) (windowMs : ℕ → Int) (k : ℕ) (r : RequestId) : Prop :=
  ∃ j, (s k).IsClose (windowMs k) j ∧ j.IsDated ∧ j.requestId = r

/-- Whether a call is answered, and finds a job near its expiry. -/
def Finds (s : ℕ → Site) (windowMs : ℕ → Int) (k : ℕ) (r : RequestId) : Prop :=
  (s k).refuses .findExpiring 0 = false ∧ Near s windowMs k r

/-- Whether a job was near its expiry at the last call before a call that was answered. -/
def WasNear (s : ℕ → Site) (windowMs : ℕ → Int) : ℕ → RequestId → Prop
  | 0, _ => False
  | k + 1, r =>
    if (s k).refuses .findExpiring 0 then WasNear s windowMs k r else Near s windowMs k r

theorem WasNear.exists_finds : ∀ {k : ℕ}, WasNear s windowMs k r → ∃ i < k, Finds s windowMs i r
  | 0, h => h.elim
  | k + 1, h => by
    unfold WasNear at h
    split at h
    · obtain ⟨i, hi, hfinds⟩ := h.exists_finds
      exact ⟨i, by omega, hfinds⟩
    · next hgoes => exact ⟨k, k.lt_succ_self, by simpa using hgoes, h⟩

/-- The depot remembers who was near at the last call that was answered. -/
theorem contains_warned_iff (h : Series s windowMs) (k : ℕ) (r : RequestId) :
    (s k).warned.contains r = true ↔ WasNear s windowMs k r := by
  induction k with
  | zero =>
    rw [h.fresh]
    exact ⟨nofun, False.elim⟩
  | succ k ih =>
    have hleads := Warnings.leads_notify_alerts (h.named k) (h.forward k)
    rw [h.carried, WasNear]
    cases hanswer : (Warnings.notify (windowMs k)).answer (s k) with
    | error e =>
      obtain ⟨hrefused, hstays⟩ := hleads.of_error hanswer
      rw [hrefused, if_pos rfl, hstays.eq]
      exact ih
    | ok n =>
      obtain ⟨hgoes, l, -, halerts⟩ := hleads.of_ok hanswer
      rw [hgoes, if_neg Bool.false_ne_true, halerts.warned, Site.isNear_iff (h.named k) (h.forward k)]
      rfl

/-- **What a call of a series comes to**: it is refused, or it warns of those who are near their expiry and were
not so before. -/
theorem call (h : Series s windowMs) (k : ℕ) :
    ((s k).refuses .findExpiring 0 = true ∧
      (∃ e, (Warnings.notify (windowMs k)).answer (s k) = .error e) ∧
        (s k).Stays ((Warnings.notify (windowMs k)).after (s k))) ∨
    ((s k).refuses .findExpiring 0 = false ∧ ∃ l,
      (Warnings.notify (windowMs k)).answer (s k) = .ok l.length ∧
      ((Warnings.notify (windowMs k)).after (s k)).log = (s k).log ++ alertsOf l ∧
      l.Pairwise (fun i j => Warnings.expiryOrder i j = .lt) ∧
      ∀ j, j ∈ l ↔ (s k).IsClose (windowMs k) j ∧ j.IsDated ∧ ¬WasNear s windowMs k j.requestId) := by
  have hleads := Warnings.leads_notify_alerts (h.named k) (h.forward k)
  cases hanswer : (Warnings.notify (windowMs k)).answer (s k) with
  | error e =>
    obtain ⟨hrefused, hstays⟩ := hleads.of_error hanswer
    exact .inl ⟨hrefused, ⟨e, rfl⟩, hstays⟩
  | ok n =>
    obtain ⟨hgoes, l, rfl, halerts⟩ := hleads.of_ok hanswer
    refine .inr ⟨hgoes, l, rfl, halerts.log, halerts.ordered, fun j => ?_⟩
    rw [halerts.members, ← h.contains_warned_iff, Bool.not_eq_true]

/-- How often a call warns of a job: once if it finds the job and the job was not near before, or else never. -/
theorem warnings_call (h : Series s windowMs) (k : ℕ) (r : RequestId) :
    (Finds s windowMs k r → ¬WasNear s windowMs k r →
      ((Warnings.notify (windowMs k)).after (s k)).warnings r = (s k).warnings r + 1) ∧
    (¬Finds s windowMs k r ∨ WasNear s windowMs k r →
      ((Warnings.notify (windowMs k)).after (s k)).warnings r = (s k).warnings r) := by
  obtain ⟨hrefused, -, hstays⟩ | ⟨hgoes, l, -, hlog, hordered, hmem⟩ := h.call k
  · have hsame : ((Warnings.notify (windowMs k)).after (s k)).warnings r = (s k).warnings r := by
      rw [hstays.eq]
      rfl
    refine ⟨fun hfinds => ?_, fun _ => hsame⟩
    rw [hfinds.1] at hrefused
    cases hrefused
  · have hexpires : ∀ j ∈ l, j.expiresAt.isSome = true := fun j hj => by
      obtain ⟨e, he, -⟩ := ((hmem j).1 hj).1.soon
      rw [he, Option.isSome_some]
    have hnodup := nodup_of_expiryOrder (fun j hj => ((hmem j).1 hj).1.stored) hordered
    have hlisted : r ∈ l.map Job.requestId ↔ Near s windowMs k r ∧ ¬WasNear s windowMs k r := by
      simp only [List.mem_map, hmem]
      constructor
      · rintro ⟨j, ⟨hclose, hdated, hnew⟩, rfl⟩
        exact ⟨⟨j, hclose, hdated, rfl⟩, hnew⟩
      · rintro ⟨⟨j, hclose, hdated, rfl⟩, hnew⟩
        exact ⟨j, ⟨hclose, hdated, hnew⟩, rfl⟩
    rw [Site.warnings_append hlog, countP_alertsOf hexpires, ← count_requestId]
    refine ⟨fun hfinds hnew => ?_, fun hnot => ?_⟩
    · rw [List.count_eq_one_of_mem hnodup (hlisted.2 ⟨hfinds.2, hnew⟩)]
    · rw [List.count_eq_zero_of_not_mem, Nat.add_zero]
      rw [hlisted]
      rintro ⟨hnear, hnew⟩
      exact hnot.elim (fun hfinds => hfinds ⟨hgoes, hnear⟩) hnew

/-- A job keeps its expiry while it is ready, and once it is no longer ready it never is again. -/
structure Lasts (s : ℕ → Site) (r : RequestId) : Prop where
  expiry : ∀ {a b : ℕ} {j j' : Job}, (s a).inventory.jobs.get? r = some j → j.status = .ready →
    (s b).inventory.jobs.get? r = some j' → j'.status = .ready → j'.expiresAt = j.expiresAt
  once : ∀ {a b c : ℕ}, a ≤ b → b ≤ c →
    (∃ j, (s a).inventory.jobs.get? r = some j ∧ j.status = .ready) →
    (∃ j, (s c).inventory.jobs.get? r = some j ∧ j.status = .ready) →
    ∃ j, (s b).inventory.jobs.get? r = some j ∧ j.status = .ready

/-- With a window that stays as it is and a clock that never goes back, whoever is near its expiry at two calls
is so in between. -/
theorem near_between (h : Series s windowMs) {w : Int} (steady : ∀ k, windowMs k = w)
    (onward : ∀ k, (s k).clock.now ≤ (s (k + 1)).clock.now) (lasts : Lasts s r) {a b c : ℕ} (hab : a ≤ b)
    (hbc : b ≤ c) (ha : Near s windowMs a r) (hc : Near s windowMs c r) : Near s windowMs b r := by
  obtain ⟨i, ⟨histored, hiready, e, hie, -, hirank⟩, hidated, rfl⟩ := ha
  obtain ⟨k, ⟨hkstored, hkready, e', hke, hknow, -⟩, -, hk⟩ := hc
  rw [hk] at hkstored
  obtain ⟨j, hjstored, hjready⟩ := lasts.once hab hbc ⟨i, histored, hiready⟩ ⟨k, hkstored, hkready⟩
  have hje : j.expiresAt = some e := (lasts.expiry histored hiready hjstored hjready).trans hie
  obtain rfl : e' = e := by
    have hsame := (lasts.expiry histored hiready hkstored hkready).trans hie
    rw [hke] at hsame
    exact Option.some.inj hsame
  have hclock : Monotone fun k => (s k).clock.now.rank := monotone_nat_of_le_succ onward
  have hend := Instant.rankAfter_mono (s a).clock.now_nanos (s b).clock.now_nanos (hclock hab) w
  have hj : j.requestId = i.requestId := (h.named b).jobs _ j hjstored
  have hnow : (s b).clock.now < e' := Int.lt_of_le_of_lt (hclock hbc) hknow
  rw [steady] at hirank
  refine ⟨j, ⟨hj ▸ hjstored, hjready, e', hje, hnow, ?_⟩, fun e he => ?_, hj⟩
  · rw [steady]
    exact Int.le_trans hirank hend
  · rw [hje] at he
    cases he
    exact hidated e' hie

/-- Once found, a job is remembered for as long as it is near its expiry. -/
theorem wasNear_of_finds (h : Series s windowMs) {w : Int} (steady : ∀ k, windowMs k = w)
    (onward : ∀ k, (s k).clock.now ≤ (s (k + 1)).clock.now) (lasts : Lasts s r) {a : ℕ}
    (ha : Finds s windowMs a r) : ∀ {c : ℕ}, a < c → Near s windowMs c r → WasNear s windowMs c r
  | 0, hac, _ => absurd hac (Nat.not_lt_zero _)
  | c + 1, hac, hc => by
    have hnear := near_between h steady onward lasts (Nat.le_of_lt_succ hac) c.le_succ ha.2 hc
    unfold WasNear
    split
    · next hrefused =>
      have hne : a ≠ c := by
        rintro rfl
        rw [ha.1] at hrefused
        cases hrefused
      exact wasNear_of_finds h steady onward lasts ha (by omega) hnear
    · exact hnear

end Series

/-- **Each call of a series warns of the jobs that are newly near their expiry.** Whatever happens between the
calls, and with a window of its own at each: a call whose query is refused fails, and warns of nobody and
forgets nobody. Any other call answers how many it warned of, with their expiry, the soonest first: of the
ready jobs that expire within the window, as if the calendar did not end, and not in the leap second at its
end, and were not such jobs at the last call that was answered. So, if the window stays as it is, the clock
never goes back, and a job keeps its expiry while it is ready and is not ready again once it has ceased to be,
the first call that finds the job warns of it, once, and no other call does. -/
theorem warnings_are_new_near_expiries {s : ℕ → Site} {windowMs : ℕ → Int} (h : Series s windowMs) :
    (∀ k s', (Warnings.notify (windowMs k)).after (s k) = s' →
      ((s k).refuses .findExpiring 0 = true →
        (∃ e, (Warnings.notify (windowMs k)).answer (s k) = .error e) ∧ s'.log = (s k).log ∧
          s'.warned = (s k).warned) ∧
      ((s k).refuses .findExpiring 0 = false → ∃ l,
        (Warnings.notify (windowMs k)).answer (s k) = .ok l.length ∧ s'.log = (s k).log ++ alertsOf l ∧
        l.Pairwise (fun i j => Warnings.expiryOrder i j = .lt) ∧
        ∀ j, j ∈ l ↔
          (s k).IsClose (windowMs k) j ∧ j.IsDated ∧ ¬Series.WasNear s windowMs k j.requestId)) ∧
    ∀ w r, (∀ k, windowMs k = w) → (∀ k, (s k).clock.now ≤ (s (k + 1)).clock.now) →
      Series.Lasts s r →
      (∀ k, Series.Finds s windowMs k r → (∀ i < k, ¬Series.Finds s windowMs i r) →
        ∀ i, ((Warnings.notify w).after (s i)).warnings r = (s i).warnings r + if i = k then 1 else 0) ∧
      ((∀ k, ¬Series.Finds s windowMs k r) →
        ∀ i, ((Warnings.notify w).after (s i)).warnings r = (s i).warnings r) := by
  refine ⟨?_, fun w r steady onward lasts => ⟨fun k hfinds hfirst i => ?_, fun hnever i => ?_⟩⟩
  · rintro k _ rfl
    obtain ⟨hrefused, hfails, hstays⟩ | ⟨hgoes, hcall⟩ := h.call k
    · refine ⟨fun _ => ⟨hfails, ?_, ?_⟩, fun hgoes => ?_⟩
      · rw [hstays.eq]
      · rw [hstays.eq]
      · rw [hrefused] at hgoes
        cases hgoes
    · refine ⟨fun hrefused => ?_, fun _ => hcall⟩
      rw [hgoes] at hrefused
      cases hrefused
  · have hcall := h.warnings_call i r
    rw [steady] at hcall
    by_cases hik : i = k
    · subst hik
      rw [if_pos rfl]
      refine hcall.1 hfinds fun hwas => ?_
      obtain ⟨j, hj, hfound⟩ := hwas.exists_finds
      exact hfirst j hj hfound
    · rw [if_neg hik, Nat.add_zero]
      refine hcall.2 ?_
      obtain hlt | hgt := Nat.lt_or_gt_of_ne hik
      · exact .inl (hfirst i hlt)
      · -- It was found before, so it is not near any more or it is remembered.
        by_cases hfound : Series.Finds s windowMs i r
        · exact .inr (Series.wasNear_of_finds h steady onward lasts hfinds hgt hfound.2)
        · exact .inl hfound
  · have hcall := (h.warnings_call i r).2 (.inl (hnever i))
    rwa [steady] at hcall

/-- A ready job that expires at a moment. -/
def expiringJob (expiry : Instant) : Job :=
  { Job.create ⟨"j"⟩ .web [] .epoch with status := .ready, expiresAt := some expiry }

/-- A depot at the beginning of 1970 with that job. -/
def expiringSite (expiry : Instant) : Site :=
  { Site.blank { cacheRoot := "cache" } with inventory := Inventory.fresh.saveJob (expiringJob expiry) }

/-- An hour into 1970. -/
def firstHour : Instant := Instant.epoch.addMillis 3600000

/-- That depot, again and again, and each time it remembers whom it has warned of when it was asked for warnings
of the next day. -/
def dailySeries : ℕ → Site
  | 0 => expiringSite firstHour
  | k + 1 =>
    { expiringSite firstHour with warned := ((Warnings.notify 86400000).after (dailySeries k)).warned }

theorem dailySeries_eq (k : ℕ) :
    dailySeries k = { expiringSite firstHour with warned := (dailySeries k).warned } := by
  cases k <;> rfl

theorem series_dailySeries : Series dailySeries fun _ => 86400000 where
  fresh := rfl
  carried _ := rfl
  named k := by
    rw [dailySeries_eq]
    exact Inventory.Named.fresh.saveJob _
  forward _ := by decide

/-- The first call warns of the job, and the second does not. -/
theorem first_call_warns :
    ((Warnings.notify 86400000).after (dailySeries 0)).warnings ⟨"j"⟩ =
        (dailySeries 0).warnings ⟨"j"⟩ + 1 ∧
      ((Warnings.notify 86400000).after (dailySeries 1)).warnings ⟨"j"⟩ =
        (dailySeries 1).warnings ⟨"j"⟩ := by
  have hclock : ∀ k, (dailySeries k).clock = (expiringSite firstHour).clock := fun k => by
    rw [dailySeries_eq]
  have hjobs : ∀ k, (dailySeries k).inventory.jobs.get? ⟨"j"⟩ = some (expiringJob firstHour) := fun k => by
    rw [dailySeries_eq]
    rfl
  have hlasts : Series.Lasts dailySeries ⟨"j"⟩ := by
    refine ⟨fun {a b j j'} hj _ hj' _ => ?_, fun {a b c} _ _ _ _ => ⟨_, hjobs b, rfl⟩⟩
    rw [hjobs] at hj hj'
    cases hj
    cases hj'
    rfl
  have hfinds : Series.Finds dailySeries (fun _ => 86400000) 0 ⟨"j"⟩ := by
    refine ⟨rfl, expiringJob firstHour, ⟨hjobs 0, rfl, firstHour, rfl, ?_, ?_⟩, ?_, rfl⟩
    · decide +kernel
    · decide +kernel
    · rintro _ ⟨⟩
      decide +kernel
  obtain ⟨-, hsteady⟩ := warnings_are_new_near_expiries series_dailySeries
  obtain ⟨honce, -⟩ := hsteady 86400000 ⟨"j"⟩ (fun _ => rfl)
    (fun k => by rw [hclock, hclock]; exact Int.le_refl _) hlasts
  have hcall := honce 0 hfinds fun i hi => absurd hi (Nat.not_lt_zero i)
  exact ⟨hcall 0, hcall 1⟩

/-- **A ready job that expires in the leap second at the end of the calendar** is within a window that reaches
further than the calendar, and the first call warns of nobody. -/
theorem leap_second_is_never_near :
    let expiry : Instant := ⟨latestSecond, 1500000000, by decide, by decide⟩
    let s := expiringSite expiry
    s.IsClose 9223372036854775807 (expiringJob expiry) ∧ s.warned = .empty ∧
      ((Warnings.notify 9223372036854775807).answer s).toOption = some 0 ∧
      ((Warnings.notify 9223372036854775807).after s).warnings ⟨"j"⟩ = 0 := by
  refine ⟨⟨?_, rfl, _, rfl, ?_, ?_⟩, rfl, ?_⟩
  all_goals decide +kernel

end Depot
