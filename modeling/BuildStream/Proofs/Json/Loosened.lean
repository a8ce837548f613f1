/-
# JSON values written loosely

An object has no order, and a newer writer may give it members that an older reader does not know.
`Json.Loosened v w` says that `w` is `v` up to that: in any of its objects, however deep, the
members of `v` come in some order and among them come others, of names that the object of `v` does
not use.  The added members are arbitrary, and one of their names may come twice.

A decoder finds members by their names alone, so it cannot tell `w` from `v`.  This is shown for the
pieces that decoders are put together from: the fields of a record (`Loosened.fields`), the tag of
a tagged one (`Loosened.tagged`), what may be null (`Reads.ofOption`) and lists
(`Loosened.listOf`).
All of it needs that an object of `v` has no name twice.
-/
import BuildStream.Json.Dialect
import Mathlib.Data.List.Forall2
import Mathlib.Data.List.Nodup

namespace BuildStream

namespace Json

/-! ## 1. Loosely written values -/

/-- The value `w` is `v` with the members of its objects in some order and others added. -/
inductive Loosened : Json → Json → Prop
  | null : Loosened .null .null
  | bool (b : Bool) : Loosened (.bool b) (.bool b)
  | number (n : JsonNumber) : Loosened (.number n) (.number n)
  | string (s : String) : Loosened (.string s) (.string s)
  | array {items items' : List Json} (each : List.Forall₂ Loosened items items') :
    Loosened (.array items) (.array items')
  | object {members written : List (String × Json)} (same added : List (String × Json))
    (names : same.map (·.1) = members.map (·.1))
    (values : List.Forall₂ Loosened (members.map (·.2)) (same.map (·.2)))
    (unknown : ∀ m ∈ added, m.1 ∉ members.map (·.1))
    (order : written.Perm (same ++ added)) :
    Loosened (.object members) (.object written)

mutual
/-- A value may be written as it stands. -/
theorem Loosened.refl : ∀ v : Json, v.Loosened v
  | .null => .null
  | .bool b => .bool b
  | .number n => .number n
  | .string s => .string s
  | .array items => .array (loosened_items items)
  | .object members =>
    .object members [] rfl (loosened_members members) nofun (by rw [List.append_nil])

theorem loosened_items : ∀ items : List Json, List.Forall₂ Loosened items items
  | [] => .nil
  | v :: vs => .cons (Loosened.refl v) (loosened_items vs)

theorem loosened_members : ∀ members : List (String × Json),
    List.Forall₂ Loosened (members.map (·.2)) (members.map (·.2))
  | [] => .nil
  | (_, v) :: rest => .cons (Loosened.refl v) (loosened_members rest)
end

/-- The decoder gives `a` of the value `v`, however loosely that is written. -/
def Reads {α : Type} (decode : Json → Except DecodeError α) (v : Json) (a : α) : Prop :=
  ∀ w, v.Loosened w → decode w = .ok a

/-! ## 2. Records -/

section Records

variable {V α : Type} {members : List (String × Json)}

/-- A member is found where no name comes twice. -/
theorem lookup_of_mem {l : List (String × V)} (once : (l.map (·.1)).Nodup) {name : String} {v : V}
    (h : (name, v) ∈ l) : l.lookup name = some v := by
  obtain ⟨before, after, rfl⟩ := List.append_of_mem h
  refine List.lookup_eq_some_iff.mpr ⟨before, after, rfl, fun m hm => ?_⟩
  rw [List.map_append, List.map_cons] at once
  have := List.disjoint_of_nodup_append once (List.mem_map_of_mem hm)
  simpa using fun he : name = m.1 => this (he ▸ List.mem_cons_self)

/-- No name is found to come twice where none does. -/
theorem firstDuplicate_of_nodup : ∀ {l : List (String × V)}, (l.map (·.1)).Nodup →
    Fields.firstDuplicate l = none
  | [], _ => rfl
  | (name, v) :: rest, once => by
    obtain ⟨absent, once⟩ := List.nodup_cons.mp once
    have : rest.lookup name = none := List.lookup_eq_none_iff.mpr fun m hm => by
      simpa using fun he : name = m.1 => absent (List.mem_map.mpr ⟨m, hm, he.symm⟩)
    simpa [Fields.firstDuplicate, this] using firstDuplicate_of_nodup once

/-- Members with the names of others, in their order, have a value for each of them. -/
theorem exists_same : ∀ {members same : List (String × Json)},
    same.map (·.1) = members.map (·.1) →
    List.Forall₂ Loosened (members.map (·.2)) (same.map (·.2)) →
    ∀ m ∈ members, ∃ w, (m.1, w) ∈ same ∧ m.2.Loosened w
  | [], _, _, _ => nofun
  | m :: members, (name, w) :: same, names, values => by
    obtain ⟨rfl, otherNames⟩ := List.cons.inj names
    obtain ⟨value, otherValues⟩ := List.forall₂_cons.mp values
    rintro m' (_ | ⟨_, hm⟩)
    · exact ⟨w, List.mem_cons_self, value⟩
    · obtain ⟨w', hw, h⟩ := exists_same otherNames otherValues m' hm
      exact ⟨w', List.mem_cons_of_mem _ hw, h⟩

/-- The fields have the members, loosely written. -/
def Holds (f : Fields Json) (members : List (String × Json)) : Prop :=
  ∀ m ∈ members, ∃ w, f.found.lookup m.1 = some w ∧ m.2.Loosened w

/-- A record finds its own members among those of an object, in whatever order these come: the
others have names that it does not know. -/
theorem exists_asFields {known : List String} {own added written : List (String × Json)}
    (inside : ∀ m ∈ own, m.1 ∈ known) (unknown : ∀ m ∈ added, m.1 ∉ known)
    (once : (own.map (·.1)).Nodup) (order : written.Perm (own ++ added)) :
    ∃ f, asFields known (.object written) = .ok f ∧ f.found.Perm own ∧
      (f.found.map (·.1)).Nodup := by
  have found : (written.filter fun m => known.contains m.1).Perm own := by
    have hs : own.filter (fun m => known.contains m.1) = own :=
      List.filter_eq_self.mpr fun m hm => by simpa using inside m hm
    have ha : added.filter (fun m => known.contains m.1) = [] :=
      List.filter_eq_nil_iff.mpr fun m hm => by simpa using unknown m hm
    have := order.filter fun m => known.contains m.1
    rwa [List.filter_append, hs, ha, List.append_nil] at this
  have foundOnce := (found.map (·.1)).nodup_iff.mpr once
  refine ⟨⟨written.filter fun m => known.contains m.1, false⟩, ?_, found, foundOnce⟩
  simp only [asFields, Fields.ofMembers, firstDuplicate_of_nodup foundOnce]

/-- **The fields of a record.**  A record that knows the names of an object, none of them twice,
finds the object's members again: what was added has names it passes over. -/
theorem Loosened.fields {w : Json} (h : Loosened (.object members) w) (known : List String)
    (hk : known = members.map (·.1)) (once : known.Nodup) :
    ∃ f, asFields known w = .ok f ∧ Holds f members := by
  subst hk
  cases h with
  | @object _ written same added names values unknown order =>
  have inside : ∀ m ∈ same, m.1 ∈ members.map (·.1) := fun m hm =>
    names ▸ List.mem_map_of_mem hm
  obtain ⟨f, hf, found, foundOnce⟩ := exists_asFields inside unknown (names ▸ once) order
  refine ⟨f, hf, fun m hm => ?_⟩
  obtain ⟨w, hw, value⟩ := exists_same names values m hm
  exact ⟨w, lookup_of_mem foundOnce (found.mem_iff.mpr hw), value⟩

variable {f : Fields Json} (name : String) {v : Json} {a : α}

/-- A field that has to be there is read. -/
theorem Holds.required (h : Holds f members) {decode : Json → Except DecodeError α}
    (hd : Reads decode v a) (hm : (name, v) ∈ members) : f.required name decode = .ok a := by
  obtain ⟨w, hw, hv⟩ := h _ hm
  simp only [Fields.required, hw, hd w hv]

/-- A field with a default is read. -/
theorem Holds.withDefault (h : Holds f members) {decode : Json → Except DecodeError α}
    (hd : Reads decode v a) (hm : (name, v) ∈ members) (default : α) :
    f.withDefault name default decode = .ok a := by
  obtain ⟨w, hw, hv⟩ := h _ hm
  simp only [Fields.withDefault, hw, hd w hv]

/-- A field that may be left out is read. -/
theorem Holds.optional (h : Holds f members) {o : Option α}
    {decode : Json → Except DecodeError (Option α)} (hd : Reads decode v o)
    (hm : (name, v) ∈ members) : f.optional name decode = .ok o := by
  obtain ⟨w, hw, hv⟩ := h _ hm
  simp only [Fields.optional, hw, hd w hv]

end Records

/-! ## 3. Tagged records -/

section Tags

variable {tag name : String} {members : List (String × Json)} {w : Json}

/-- **The tag of a record.**  The tag of an object is the only member of its name, and what is left
without it is the rest of the object, loosely written. -/
theorem Loosened.tagged (h : Loosened (.object ((tag, .string name) :: members)) w)
    (variants : List String) (hv : variants.contains name) (once : tag ∉ members.map (·.1))
    (isNested : Bool) :
    ∃ rest, tagged isNested tag variants w = .ok (name, rest) ∧ Loosened (.object members) rest := by
  cases h with
  | @object _ written same added names values unknown order =>
  obtain _ | ⟨⟨tag', t⟩, same⟩ := same
  · cases names
  obtain ⟨rfl, otherNames⟩ := List.cons.inj names
  obtain ⟨ht, otherValues⟩ := List.forall₂_cons.mp values
  cases ht
  have ha : ∀ m ∈ added, m.1 ≠ tag' ∧ m.1 ∉ members.map (·.1) := fun m hm => by
    simpa using unknown m hm
  have others : ∀ m ∈ same ++ added, m.1 ≠ tag' := fun m hm =>
    (List.mem_append.mp hm).elim
      (fun hs he => once (otherNames ▸ List.mem_map.mpr ⟨m, hs, he⟩)) fun h => (ha m h).1
  have found : written.filter (·.1 == tag') = [(tag', .string name)] := by
    have none : (same ++ added).filter (·.1 == tag') = [] :=
      List.filter_eq_nil_iff.mpr fun m hm => by simpa using others m hm
    have := order.filter (·.1 == tag')
    rw [List.cons_append, List.filter_cons_of_pos (by simp), none] at this
    exact List.perm_singleton.mp this
  have rest : (written.filter (·.1 != tag')).Perm (same ++ added) := by
    have all : (same ++ added).filter (·.1 != tag') = same ++ added :=
      List.filter_eq_self.mpr fun m hm => by simpa using others m hm
    have := order.filter (·.1 != tag')
    rwa [List.cons_append, List.filter_cons_of_neg (by simp), all] at this
  refine ⟨.object (written.filter (·.1 != tag')), ?_,
    .object same added otherNames otherValues (fun m hm => (ha m hm).2) rest⟩
  simp only [Json.tagged, found, tagName, hv, if_true, Except.map]

/-- The rest of a record whose variant carries nothing is passed over. -/
theorem Loosened.noFields (h : Loosened (.object members) w) : noFields w = .ok () := by
  cases h
  rfl

end Tags

/-! ## 4. Nesting -/

/-- No value has depth zero. -/
theorem depth_pos : ∀ v : Json, 0 < v.depth
  | .null | .bool _ | .number _ | .string _ => Nat.one_pos
  | .array _ | .object _ => Nat.succ_pos _

theorem depth_le_of_mem_items : ∀ {items : List Json} {v : Json}, v ∈ items →
    v.depth ≤ depthOfItems items
  | _ :: _, _, .head _ => Nat.le_max_left ..
  | _ :: _, _, .tail _ h => Nat.le_trans (depth_le_of_mem_items h) (Nat.le_max_right ..)

theorem depth_le_of_mem_members : ∀ {members : List (String × Json)} {name : String} {v : Json},
    (name, v) ∈ members → v.depth ≤ depthOfMembers members
  | _ :: _, _, _, .head _ => Nat.le_max_left ..
  | _ :: _, _, _, .tail _ h => Nat.le_trans (depth_le_of_mem_members h) (Nat.le_max_right ..)

/-- What a record has is less deeply nested than the record. -/
theorem depth_lt_of_fields {known : List String} {w v : Json} {f : Fields Json} {name : String}
    (hf : asFields known w = .ok f) (hv : f.found.lookup name = some v) : v.depth < w.depth := by
  have hm : (name, v) ∈ f.found := by
    obtain ⟨before, after, he, -⟩ := List.lookup_eq_some_iff.mp hv
    exact he ▸ List.mem_append_right _ List.mem_cons_self
  cases w with
  | object members =>
    simp only [asFields, Fields.ofMembers] at hf
    split at hf
    · cases hf
    · cases hf
      exact Nat.lt_succ_of_le (depth_le_of_mem_members (List.mem_of_mem_filter hm))
  | array items =>
    simp only [asFields, Fields.ofItems] at hf
    split at hf
    · cases hf
    · cases hf
      exact Nat.lt_succ_of_le (depth_le_of_mem_items (List.of_mem_zip hm).2)
  | _ => cases hf

/-! ## 5. What may be null, and lists -/

section Values

variable {α : Type} {encode : α → Json} {decode : Json → Except DecodeError α} {w : Json}

/-- Only null is written as null. -/
theorem Loosened.eq_null {v : Json} (h : v.Loosened .null) : v = .null := by
  cases h
  rfl

/-- What is not null is there, and is read as such. -/
theorem option_eq_ok (isNested : Bool) {a : α} (hw : w ≠ .null) (hd : decode w = .ok a) :
    (dialect isNested).option decode w = .ok (some a) := by
  have hn : nonNull? w = some w := by
    cases w with
    | null => exact absurd rfl hw
    | _ => rfl
  simp only [Dialect.option, dialect, hn, hd, Except.map]

/-- What is there is read as such, and null as what is absent. -/
theorem Reads.ofOption (hd : ∀ a, Reads decode (encode a) a) (hn : ∀ a, encode a ≠ .null)
    (isNested : Bool) (o : Option α) :
    Reads ((dialect isNested).option decode) (ofOption encode o) o := by
  intro w h
  cases o with
  | none => cases h; rfl
  | some a =>
    have hw : w ≠ .null := by
      rintro rfl
      exact hn a h.eq_null
    exact option_eq_ok isNested hw (hd a w h)

/-- Items that are read each by itself are read from the first to the last. -/
theorem decodeAll_of_forall₂ {items : List Json} {as : List α}
    (h : List.Forall₂ (fun v a => decode v = .ok a) items as) :
    Dialect.decodeAll decode items = .ok as := by
  induction h with
  | nil => rfl
  | cons hv _ ih => simp only [Dialect.decodeAll, hv, ih]

/-- **Lists.**  A list is read if its items are, which are less deeply nested than the list. -/
theorem Loosened.listOf {as : List α} (h : Loosened (.array (as.map encode)) w)
    (hd : ∀ a v, (encode a).Loosened v → v.depth < w.depth → decode v = .ok a) (isNested : Bool) :
    (dialect isNested).listOf decode w = .ok as := by
  cases h with
  | @array _ items each =>
  have inside : ∀ v ∈ items, v.depth < (Json.array items).depth := fun v hv =>
    Nat.lt_succ_of_le (depth_le_of_mem_items hv)
  have written := (List.forall₂_map_left_iff.mp each).flip
  exact decodeAll_of_forall₂ (((List.forall₂_and_left _ _).mpr ⟨inside, written⟩).imp
    fun v a h => hd a v h.2 h.1)

end Values

end Json

end BuildStream
