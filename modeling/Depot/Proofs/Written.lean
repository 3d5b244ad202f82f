import Depot.Inventory.Json
import Depot.Proofs.Json
import Depot.Proofs.Stamps
import Depot.Proofs.Table

/-!
# Written inventories are read back

What is written of an inventory says all of it: every record, every job and every reference is read back as
it was, whatever its texts, numbers and instants are.

A kind of thing is *faithfully* written when it is written as a plain value, never as `null`, and is read
back from there. Lists, sets and tables of such things are faithfully written, and so are records that have
such fields.

## Main statements

* `FileRecord.faithful`, `Job.faithful`, `Inventory.faithful` — records, jobs and inventories.
* `Inventory.ofText?_text` — an inventory is read back from the text of its file.
-/

namespace Depot

namespace Json

/-- **Things are faithfully written.** -/
structure Faithful {α : Type} (encode : α → Json) (decode : Json → Option α) : Prop where
  plain : ∀ a, (encode a).Plain
  present : ∀ a, encode a ≠ .null
  read : ∀ a, decode (encode a) = some a

/-! ### Simple values -/

theorem faithful_string : Faithful .string asString? := ⟨.string, nofun, fun _ => rfl⟩

theorem faithful_bool : Faithful .bool asBool? := ⟨.bool, nofun, fun _ => rfl⟩

theorem asNat?_nat {bound n : Nat} (h : n < bound) : asNat? bound (.nat n) = some n := by
  rw [asNat?, nat, asInt?, Option.bind_eq_bind, Option.bind_some, if_pos (by omega)]
  rfl

theorem faithful_word : Faithful word asUInt64? := by
  refine ⟨fun n => .integer _, nofun, fun n => ?_⟩
  rw [word, asUInt64?, asNat?_nat n.toNat_lt, Option.map_some, UInt64.ofNat_toNat]

theorem faithful_count : Faithful (fun n : UInt32 => .nat n.toNat) asUInt32? := by
  refine ⟨fun n => .integer _, nofun, fun n => ?_⟩
  rw [asUInt32?, asNat?_nat n.toNat_lt, Option.map_some, UInt32.ofNat_toNat]

/-- What has a name is written by its name. -/
theorem faithful_named {α : Type} {name : α → String} {ofName? : String → Option α}
    (h : ∀ a, ofName? (name a) = some a) :
    Faithful (fun a => .string (name a)) fun j => (asName? j).bind ofName? :=
  ⟨fun _ => .string _, nofun, h⟩

/-! ### Lists and tables -/

theorem mapM_map_eq_some {α β : Type} {encode : α → β} {decode : β → Option α}
    (h : ∀ a, decode (encode a) = some a) (l : List α) : (l.map encode).mapM decode = some l := by
  induction l with
  | nil => rfl
  | cons a l ih => simp [List.mapM_cons, h, ih]

theorem Faithful.list {α : Type} {encode : α → Json} {decode : Json → Option α}
    (h : Faithful encode decode) : Faithful (.list encode) (asList? decode) := by
  refine ⟨fun l => .array fun j hj => ?_, nofun, mapM_map_eq_some h.read⟩
  obtain ⟨a, -, rfl⟩ := List.mem_map.1 hj
  exact h.plain a

/-- A record of plain values is plain. -/
theorem plain_record {members : List (String × Json)} (h : ∀ m ∈ members, m.2.Plain) :
    (record members).Plain := by
  refine .object (fun m hm => ?_) fun m hm => ?_
  · obtain ⟨n, -, rfl⟩ := List.mem_map.1 hm
    rfl
  · obtain ⟨n, hn, rfl⟩ := List.mem_map.1 hm
    exact h n hn

/-- A table is written as an object whose members have the names of its keys. -/
theorem Faithful.table {κ α : Type} [Ord κ] [Std.TransOrd κ] [Std.LawfulEqOrd κ] [DecidableEq κ]
    {text : κ → String} {key : String → κ} (named : ∀ k, key (text k) = k) {encode : α → Json}
    {decode : Json → Option α} (h : Faithful encode decode) :
    Faithful (fun t : Table κ α => .record (t.entries.map fun (k, a) => (text k, encode a)))
      (Inventory.tableOfJson? key decode) := by
  refine ⟨fun t => plain_record fun m hm => ?_, nofun, fun t => ?_⟩
  · obtain ⟨e, -, rfl⟩ := List.mem_map.1 hm
    exact h.plain e.2
  · have hentries : (t.entries.map fun e => (some (text e.1), encode e.2)).mapM (asMember? key decode) =
        some t.entries :=
      mapM_map_eq_some (fun e => by rw [asMember?, h.read, Option.map_some, named]) t.entries
    rw [Inventory.tableOfJson?, record, asEntries?, List.map_map]
    exact (congrArg (Option.map Table.ofList) hentries).trans (congrArg some t.ofList_entries)

/-! ### Records -/

theorem record_ne_null (members : List (String × Json)) : record members ≠ .null := nofun

/-- A member is found by its name. -/
theorem member?_of_mem {members : List (String × Json)} (nodup : (members.map Prod.fst).Nodup)
    {m : String × Json} (h : m ∈ members) :
    member? (members.map fun m => (some m.1, m.2)) m.1 = some (some m.2) := by
  have hfilter : (members.map fun m => (some m.1, m.2)).filter (fun x => x.1 = some m.1) =
      [(some m.1, m.2)] := by
    induction members with
    | nil => cases h
    | cons n members ih =>
      rw [List.map_cons, List.nodup_cons] at nodup
      rw [List.map_cons]
      rcases List.mem_cons.1 h with rfl | h
      · have hothers : ∀ x ∈ members.map (fun m => (some m.1, m.2)), ¬decide (x.1 = some m.1) = true := by
          intro x hx heq
          obtain ⟨n, hn, rfl⟩ := List.mem_map.1 hx
          have hname : n.1 = m.1 := Option.some.inj (of_decide_eq_true heq)
          exact nodup.1 (hname ▸ List.mem_map_of_mem hn)
        rw [List.filter_cons_of_pos (by simp), List.filter_eq_nil_iff.2 hothers]
      · have hne : n.1 ≠ m.1 := fun heq => nodup.1 (heq ▸ List.mem_map_of_mem h)
        rw [List.filter_cons_of_neg (by simp [hne])]
        exact ih nodup.2 h
  rw [member?, hfilter]

/-- The fields of a record are found under their names. -/
theorem row?_record {fields : List Field} {members : List (String × Json)}
    (nodup : (fields.map Field.name).Nodup) (names : fields.map Field.name = members.map Prod.fst) :
    row? fields (record members) = some members := by
  rw [names] at nodup
  have hrow : ∀ (l : List (String × Json)) (fields : List Field), (∀ m ∈ l, m ∈ members) →
      fields.map Field.name = l.map Prod.fst →
      rowOfMembers? (members.map fun m => (some m.1, m.2)) fields = some l := by
    intro l
    induction l with
    | nil =>
      intro fields _ hnames
      rw [List.map_eq_nil_iff.1 hnames]
      rfl
    | cons m l ih =>
      intro fields hmem hnames
      cases fields with
      | nil => cases hnames
      | cons field fields =>
        obtain ⟨hname, hnames⟩ := List.cons_eq_cons.1 hnames
        rw [rowOfMembers?, hname, member?_of_mem nodup (hmem m (.head _)),
          ih fields (fun m hm => hmem m (.tail _ hm)) hnames]
        rfl
  have hnamed : (members.map fun m => (some m.1, m.2)).all (fun m => m.1.isSome) = true := by
    simp
  exact (if_pos hnamed).trans (hrow members fields (fun _ h => h) names)

namespace Faithful

variable {α : Type} {encode : α → Json} {decode : Json → Option α} {row : Row} {name : String}

theorem required (h : Faithful encode decode) {a : α} (found : row.find? name = some (encode a)) :
    row.required name decode = some a := by
  rw [Row.required, found, Option.bind_eq_bind, Option.bind_some, h.read]

theorem defaulted (h : Faithful encode decode) {a : α} (found : row.find? name = some (encode a))
    (default : α) : row.defaulted name decode default = some a := by
  rw [Row.defaulted, found]
  exact h.read a

theorem optional (h : Faithful encode decode) {o : Option α}
    (found : row.find? name = some (ofOption encode o)) : row.optional name decode = some o := by
  rw [Row.optional, found]
  cases o with
  | none => rfl
  | some a =>
    have hpresent := h.present a
    rw [ofOption]
    split
    · next heq => cases heq
    · next heq => exact absurd (Option.some.inj heq) hpresent
    · next heq =>
      cases heq
      rw [h.read, Option.map_some]

theorem plain_option (h : Faithful encode decode) (o : Option α) : (ofOption encode o).Plain := by
  cases o with
  | none => exact .null
  | some a => exact h.plain a

end Faithful

end Json

/-! ### Names and instants -/

open Json Time

theorem FileId.faithful : Faithful FileId.toJson FileId.ofJson? := ⟨fun _ => .string _, nofun, fun _ => rfl⟩

theorem RequestId.faithful : Faithful RequestId.toJson RequestId.ofJson? :=
  ⟨fun _ => .string _, nofun, fun _ => rfl⟩

theorem FileKind.faithful : Faithful FileKind.toJson FileKind.ofJson? := faithful_named ofName?_name

theorem JobStatus.faithful : Faithful JobStatus.toJson JobStatus.ofJson? := faithful_named ofName?_name

theorem DownloadMode.faithful : Faithful DownloadMode.toJson DownloadMode.ofJson? :=
  faithful_named ofName?_name

theorem Instant.faithful : Faithful Instant.toJson Instant.ofJson? := by
  refine ⟨fun i => .string i.text, fun i h => Json.noConfusion h, fun i => ?_⟩
  rw [Instant.toJson, Instant.ofJson?, asString?, Option.bind_eq_bind, Option.bind_some,
    Instant.ofText?_text]

/-! ### Records of files, jobs and inventories -/

theorem ManifestEntry.faithful : Faithful ManifestEntry.toJson ManifestEntry.ofJson? := by
  refine ⟨fun e => plain_record ?_, fun _ => record_ne_null _, fun e => ?_⟩
  · simp only [List.forall_mem_cons]
    exact ⟨FileId.faithful.plain _, FileKind.faithful.plain _, faithful_string.plain_option _,
      faithful_word.plain_option _, nofun⟩
  · rw [toJson, ofJson?, row?_record]
    · rw [Option.bind_eq_bind, Option.bind_some]
      rw [FileId.faithful.required rfl, FileKind.faithful.required rfl,
        faithful_string.optional rfl, faithful_word.optional rfl]
      rfl
    · simp [fields]
    · rfl

theorem FileRecord.faithful : Faithful FileRecord.toJson FileRecord.ofJson? := by
  refine ⟨fun f => plain_record ?_, fun _ => record_ne_null _, fun f => ?_⟩
  · simp only [List.forall_mem_cons]
    exact ⟨FileId.faithful.plain _, FileKind.faithful.plain _, faithful_word.plain_option _,
      faithful_word.plain _, Instant.faithful.plain_option _, .bool _, .bool _,
      faithful_string.plain_option _, faithful_count.plain _, faithful_string.plain_option _,
      faithful_string.plain_option _, nofun⟩
  · rw [toJson, ofJson?, row?_record]
    · rw [Option.bind_eq_bind, Option.bind_some]
      rw [FileId.faithful.required rfl, FileKind.faithful.required rfl,
        faithful_word.optional rfl, faithful_word.required rfl, Instant.faithful.optional rfl,
        faithful_bool.required rfl, faithful_bool.defaulted rfl, faithful_string.optional rfl,
        faithful_count.required rfl, faithful_string.optional rfl, faithful_string.optional rfl]
      rfl
    · simp [fields]
    · rfl

theorem Job.faithful : Faithful Job.toJson Job.ofJson? := by
  refine ⟨fun j => plain_record ?_, fun _ => record_ne_null _, fun j => ?_⟩
  · simp only [List.forall_mem_cons]
    exact ⟨RequestId.faithful.plain _, JobStatus.faithful.plain _, Instant.faithful.plain _,
      Instant.faithful.plain_option _, Instant.faithful.plain_option _, Instant.faithful.plain _,
      DownloadMode.faithful.plain _, faithful_string.plain_option _,
      ManifestEntry.faithful.list.plain _, nofun⟩
  · rw [toJson, ofJson?, row?_record]
    · rw [Option.bind_eq_bind, Option.bind_some]
      rw [RequestId.faithful.required rfl, JobStatus.faithful.required rfl,
        Instant.faithful.required rfl, Instant.faithful.optional rfl, Instant.faithful.optional rfl,
        Instant.faithful.required rfl, DownloadMode.faithful.required rfl,
        faithful_string.optional rfl, ManifestEntry.faithful.list.required rfl]
      rfl
    · simp [fields]
    · rfl

namespace Inventory

/-- The requests that refer to a file are written as a list. -/
theorem faithful_referrers :
    Faithful (fun s : KeySet RequestId => .list RequestId.toJson s.keys) referrersOfJson? := by
  refine ⟨fun s => RequestId.faithful.list.plain _, nofun, fun s => ?_⟩
  rw [referrersOfJson?, RequestId.faithful.list.read, Option.map_some, KeySet.ofKeys_keys]

theorem faithful : Faithful Inventory.toJson Inventory.ofJson? := by
  have hfiles := FileRecord.faithful.table (fun id : FileId => (rfl : FileId.mk id.text = id))
  have hreferences := faithful_referrers.table (fun id : FileId => (rfl : FileId.mk id.text = id))
  have hjobs := Job.faithful.table (fun r : RequestId => (rfl : RequestId.mk r.text = r))
  refine ⟨fun v => plain_record ?_, fun _ => record_ne_null _, fun v => ?_⟩
  · simp only [List.forall_mem_cons]
    exact ⟨faithful_count.plain _, hfiles.plain _, hreferences.plain _, hjobs.plain _, nofun⟩
  · rw [toJson, ofJson?, row?_record]
    · rw [Option.bind_eq_bind, Option.bind_some]
      rw [faithful_count.defaulted rfl, hfiles.defaulted rfl, hreferences.defaulted rfl,
        hjobs.defaulted rfl]
      rfl
    · simp [fields]
    · rfl

/-- **An inventory is read back from the text of its file.** -/
theorem ofText?_text (v : Inventory) : ofText? v.text = some v := by
  rw [ofText?, text, parse?_pretty (faithful.plain v), Option.bind_some, faithful.read]

end Inventory

end Depot
