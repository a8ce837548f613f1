/-
# JSON values with members left out

What is written by hand leaves out what goes without saying.  A `Json.Form` says of a value which
of its objects are records, which fields a record has, and what a field is when it is left out.
`Json.Abridged form v w` says that `w` is `v` up to that: wherever the form has a record, members
of `v` whose value is the default of their field may be missing from `w`, the others come in some
order, and among them come arbitrary ones of names that the record does not have.  Lists keep their
items, and what the form calls plain is written as it stands.

A decoder that reads records by these forms cannot tell `w` from `v`.  The step that says so is
`Kept.withDefault`: a member that is missing has the written form of the default as its value, and
two values with the same written form are the same, because each of them is read back from it.
-/
import BuildStream.Proofs.Json.Loosened

namespace BuildStream

namespace Json

/-! ## 1. Abridged values -/

/-- How a value is written. -/
inductive Form where
  /-- As it stands. -/
  | plain
  /-- As a list of items of one form. -/
  | list (item : Form)
  /-- As a record: the names of its fields, their forms, and what is meant if one is left out. -/
  | record (fields : List (String × Form × Option Json))

mutual

/-- The value `w` is `v` with defaults left out of its records and unknown members added to them. -/
inductive Abridged : Form → Json → Json → Prop
  | same (form : Form) (v : Json) : Abridged form v v
  | list {form : Form} {items items' : List Json} (each : AbridgedItems form items items') :
    Abridged (.list form) (.array items) (.array items')
  | record {fields : List (String × Form × Option Json)} {members written : List (String × Json)}
    (kept added : List (String × Json)) (each : AbridgedMembers fields members kept)
    (unknown : ∀ m ∈ added, m.1 ∉ fields.map (·.1)) (order : written.Perm (kept ++ added)) :
    Abridged (.record fields) (.object members) (.object written)

-- The form is not the same for all values, so the items cannot be a `List.Forall₂` in here; see
-- `AbridgedItems.forall₂`.
/-- The items of a list are abridged one by one. -/
inductive AbridgedItems : Form → List Json → List Json → Prop
  | nil {form : Form} : AbridgedItems form [] []
  | cons {form : Form} {v w : Json} {vs ws : List Json} (first : Abridged form v w)
    (rest : AbridgedItems form vs ws) : AbridgedItems form (v :: vs) (w :: ws)

/-- Of the members of a record some are kept and abridged, and the others have their default. -/
inductive AbridgedMembers :
    List (String × Form × Option Json) → List (String × Json) → List (String × Json) → Prop
  | nil : AbridgedMembers [] [] []
  | keep {name : String} {form : Form} {default : Option Json} {v w : Json}
    {fields : List (String × Form × Option Json)} {members kept : List (String × Json)}
    (value : Abridged form v w) (rest : AbridgedMembers fields members kept) :
    AbridgedMembers ((name, form, default) :: fields) ((name, v) :: members) ((name, w) :: kept)
  | leaveOut {name : String} {form : Form} {v : Json}
    {fields : List (String × Form × Option Json)} {members kept : List (String × Json)}
    (rest : AbridgedMembers fields members kept) :
    AbridgedMembers ((name, form, some v) :: fields) ((name, v) :: members) kept

end

/-- The decoder gives `a` of the value `v`, however that is abridged. -/
def Recovers {α : Type} (form : Form) (decode : Json → Except DecodeError α) (v : Json) (a : α) :
    Prop :=
  ∀ w, Abridged form v w → decode w = .ok a

section Values

variable {α : Type} {form : Form} {decode : Json → Except DecodeError α} {v w : Json} {a b : α}

theorem Recovers.decode_eq (h : Recovers form decode v a) : decode v = .ok a := h v (.same form v)

/-- Values with the same written form are the same. -/
theorem Recovers.unique (ha : Recovers form decode v a) (hb : Recovers form decode v b) : a = b :=
  Except.ok.inj (ha.decode_eq.symm.trans hb.decode_eq)

/-- What is plain is read if it is read as it stands. -/
theorem recovers_plain (h : decode v = .ok a) : Recovers .plain decode v a := by
  rintro w ⟨⟩
  exact h

/-! ## 2. What may be null, and lists -/

theorem Abridged.null_iff (h : Abridged form v w) : w = .null ↔ v = .null := by
  cases h <;> simp

/-- What is there is read as such, and null as what is absent. -/
theorem Recovers.ofOption {encode : α → Json} (hd : ∀ a, Recovers form decode (encode a) a)
    (hn : ∀ a, encode a ≠ .null) (isNested : Bool) (o : Option α) :
    Recovers form ((dialect isNested).option decode) (ofOption encode o) o := by
  intro w h
  cases o with
  | none =>
    rw [h.null_iff.mpr rfl]
    rfl
  | some a =>
    have hw : w ≠ .null := by
      intro hw
      exact hn a (h.null_iff.mp hw)
    exact option_eq_ok isNested hw (hd a w h)

theorem AbridgedItems.forall₂ : ∀ {items items' : List Json}, AbridgedItems form items items' →
    List.Forall₂ (Abridged form) items items'
  | _, _, .nil => .nil
  | _, _, .cons first rest => .cons first rest.forall₂

/-- **Lists** are read if their items are. -/
theorem Recovers.listOf {encode : α → Json} (hd : ∀ a, Recovers form decode (encode a) a)
    (isNested : Bool) (as : List α) :
    Recovers (.list form) ((dialect isNested).listOf decode) (.array (as.map encode)) as := by
  intro w h
  have hitems : ∃ items, w = .array items ∧ List.Forall₂ (Abridged form) (as.map encode) items := by
    cases h with
    | same => exact ⟨_, rfl, List.forall₂_same.mpr fun v _ => .same form v⟩
    | list each => exact ⟨_, rfl, each.forall₂⟩
  obtain ⟨items, rfl, each⟩ := hitems
  refine decodeAll_of_forall₂ ((List.forall₂_map_left_iff.mp each).flip.imp ?_)
  intro v a hv
  exact hd a v hv

end Values

/-! ## 3. Records -/

section Records

variable {fields : List (String × Form × Option Json)} {members kept : List (String × Json)}

/-- What is kept has names of the record, in their order. -/
theorem AbridgedMembers.names_sublist : ∀ {fields : List (String × Form × Option Json)}
    {members kept : List (String × Json)}, AbridgedMembers fields members kept →
    (kept.map (·.1)).Sublist (fields.map (·.1))
  | _, _, _, .nil => .slnil
  | _, _, _, .keep _ rest => rest.names_sublist.cons_cons _
  | _, _, _, .leaveOut rest => rest.names_sublist.cons _

theorem abridgedMembers_refl : ∀ {fields : List (String × Form × Option Json)}
    {members : List (String × Json)}, members.map (·.1) = fields.map (·.1) →
    AbridgedMembers fields members members
  | [], [], _ => .nil
  | (_, form, _) :: _, (_, v) :: _, names => by
    obtain ⟨rfl, others⟩ := List.cons.inj names
    exact .keep (.same form v) (abridgedMembers_refl others)

/-- A member is kept, or it is missing and has the default of its field. -/
theorem AbridgedMembers.kept_or_missing : ∀ {fields : List (String × Form × Option Json)}
    {members kept : List (String × Json)}, AbridgedMembers fields members kept →
    (fields.map (·.1)).Nodup → ∀ {name : String} {form : Form} {default : Option Json}
    {m : String × Json}, ((name, form, default), m) ∈ fields.zip members →
    (∃ w, (name, w) ∈ kept ∧ Abridged form m.2 w) ∨
      name ∉ kept.map (·.1) ∧ default = some m.2
  | _, _, _, .nil, _, _, _, _, _, hm => nomatch hm
  | _, _, _, .keep value rest, once, name, form, default, m, hm => by
    obtain ⟨first, others⟩ := List.nodup_cons.mp once
    rcases List.mem_cons.mp hm with he | hmore
    · cases he
      exact .inl ⟨_, List.mem_cons_self, value⟩
    · refine (rest.kept_or_missing others hmore).imp ?_ ?_
      · rintro ⟨w, hw, hv⟩
        exact ⟨w, List.mem_cons_of_mem _ hw, hv⟩
      · rintro ⟨hn, hd⟩
        refine ⟨?_, hd⟩
        rw [List.map_cons, List.mem_cons]
        rintro (rfl | hk)
        · exact first (List.mem_map.mpr ⟨_, (List.of_mem_zip hmore).1, rfl⟩)
        · exact hn hk
  | _, _, _, .leaveOut rest, once, name, form, default, m, hm => by
    obtain ⟨first, others⟩ := List.nodup_cons.mp once
    rcases List.mem_cons.mp hm with he | hmore
    · cases he
      exact .inr ⟨fun hk => first (rest.names_sublist.subset hk), rfl⟩
    · exact rest.kept_or_missing others hmore

/-- The fields have the members, abridged, and lack only what has the default of its field. -/
def Kept (f : Fields Json) (fields : List (String × Form × Option Json))
    (members : List (String × Json)) : Prop :=
  ∀ name form default m, ((name, form, default), m) ∈ fields.zip members →
    (∃ w, f.found.lookup name = some w ∧ Abridged form m.2 w) ∨
      f.found.lookup name = none ∧ default = some m.2

/-- **The fields of a record** are found in whatever is left of its object, with nothing but
defaults missing. -/
theorem Abridged.asFields {w : Json} (h : Abridged (.record fields) (.object members) w)
    (known : List String) (hk : known = fields.map (·.1)) (names : members.map (·.1) = known)
    (once : known.Nodup) : ∃ f, asFields known w = .ok f ∧ Kept f fields members := by
  subst hk
  obtain ⟨written, own, added, rfl, each, unknown, order⟩ : ∃ written own added,
      w = .object written ∧ AbridgedMembers fields members own ∧
        (∀ m ∈ added, m.1 ∉ fields.map (·.1)) ∧ written.Perm (own ++ added) := by
    cases h with
    | same =>
      refine ⟨members, members, [], rfl, abridgedMembers_refl names, nofun, ?_⟩
      rw [List.append_nil]
    | record own added each unknown order => exact ⟨_, own, added, rfl, each, unknown, order⟩
  have inside : ∀ m ∈ own, m.1 ∈ fields.map (·.1) := fun m hm =>
    each.names_sublist.subset (List.mem_map_of_mem hm)
  obtain ⟨f, hf, found, foundOnce⟩ :=
    exists_asFields inside unknown (each.names_sublist.nodup once) order
  refine ⟨f, hf, ?_⟩
  intro name form default m hm
  rcases each.kept_or_missing once hm with ⟨w, hw, value⟩ | ⟨hn, hd⟩
  · exact .inl ⟨w, lookup_of_mem foundOnce (found.mem_iff.mpr hw), value⟩
  · refine .inr ⟨List.lookup_eq_none_iff.mpr ?_, hd⟩
    intro m' hm'
    have hne : name ≠ m'.1 := fun he => hn (he ▸ List.mem_map_of_mem (found.mem_iff.mp hm'))
    simpa using hne

variable {α : Type} {f : Fields Json} {decode : Json → Except DecodeError α} {form : Form}
  {v written : Json} {a default : α} (name : String)

/-- A field that has to be there is read. -/
theorem Kept.required (h : Kept f fields members) (hd : Recovers form decode v a)
    (hm : ((name, form, none), (name, v)) ∈ fields.zip members) : f.required name decode = .ok a := by
  rcases h _ _ _ _ hm with ⟨w, hw, value⟩ | ⟨-, hnone⟩
  · simp only [Fields.required, hw, hd w value]
  · cases hnone

/-- **A field with a default** is read, whether it is there or was left out. -/
theorem Kept.withDefault (h : Kept f fields members) (hd : Recovers form decode v a)
    (hdefault : Recovers form decode written default)
    (hm : ((name, form, some written), (name, v)) ∈ fields.zip members) :
    f.withDefault name default decode = .ok a := by
  rcases h _ _ _ _ hm with ⟨w, hw, value⟩ | ⟨hw, hv⟩
  · simp only [Fields.withDefault, hw, hd w value]
  · obtain rfl : written = v := Option.some.inj hv
    simp only [Fields.withDefault, hw, hdefault.unique hd]

end Records

end Json

end BuildStream
