/-
# The operations around an operation

An operation refers to its parent by the serial number of what was in flight under the parent's id
when it started, and the reference leads somewhere as long as that very operation is in flight.
Which operations a listener finds around the one it is told of so depends on what was sent, on the
order in which operations came and went, and on ids that were used again.

For events in order (`Orderly`) in which no parent starts or ends while a child is in flight
(`Enclosed`), nothing of this is left: the reference is the same as looking the parent's id up now
(`Linked`), so what is found can be read off the events (`Lineage`, `ancestors_of_accept`).

Serial numbers matter in one place only, where a reference is followed; that it leads back to the
operation it was made of is `Ranked.bySerial?_eq`.
-/
import BuildStream.Proofs.Distinct
import BuildStream.Proofs.Stream.Listening

namespace BuildStream

namespace Stream

/-! ## 1. Serial numbers -/

/-- Operations in flight have serial numbers of their own, and a parent's is smaller. -/
structure Ranked (s : Stream) : Prop where
  serials : (s.operations.map (·.2.serial)).Nodup
  below : ∀ o ∈ s.operations, o.2.serial < s.nextSerial
  parents : ∀ o ∈ s.operations, ∀ serial ∈ o.2.parent, serial < o.2.serial

variable {s t : Stream} {e : Event} {notice : Notice} {id : OperationId} {op : Operation}

theorem mem_operations (h : s.operation? id = some op) : (id, op) ∈ s.operations := by
  obtain ⟨before, after, ho, -⟩ := List.lookup_eq_some_iff.mp h
  rw [ho]
  exact List.mem_append_right _ List.mem_cons_self

/-- **A serial number leads back** to the operation in flight that has it. -/
theorem Ranked.bySerial?_eq (h : s.Ranked) (hop : s.operation? id = some op) :
    s.bySerial? op.serial = some op := by
  have hn : ((s.operations.map (·.2)).map (·.serial)).Nodup := by
    rw [List.map_map]
    exact h.serials
  exact find?_of_mem hn (List.mem_map_of_mem (mem_operations hop))

theorem Ranked.parent_lt (h : s.Ranked) (hop : s.operation? id = some op) {serial : Nat}
    (hs : op.parent = some serial) : serial < op.serial :=
  h.parents _ (mem_operations hop) serial hs

theorem Ranked.of_sublist (h : s.Ranked) (hs : t.operations.Sublist s.operations)
    (hn : t.nextSerial = s.nextSerial) : t.Ranked where
  serials := (hs.map _).nodup h.serials
  below o ho := hn ▸ h.below o (hs.mem ho)
  parents o ho := h.parents o (hs.mem ho)

theorem Ranked.close (h : s.Ranked) : s.close.Ranked := h.of_sublist (List.nil_sublist _) rfl

theorem Ranked.start (h : s.Ranked) (e : ProgressEvent) : (s.start e).1.Ranked := by
  have hold : ∀ o ∈ without e.descriptor.id s.operations, o ∈ s.operations :=
    fun o ho => (List.mem_filter.mp ho).1
  refine ⟨?_, ?_, ?_⟩
  · simp only [Stream.start, List.map_append, List.map_cons, List.map_nil]
    refine List.Nodup.append ?_ (List.nodup_singleton _) ?_
    · exact (List.filter_sublist.map _).nodup h.serials
    · intro serial hm hnew
      obtain ⟨o, ho, rfl⟩ := List.mem_map.mp hm
      exact Nat.lt_irrefl _ (List.mem_singleton.mp hnew ▸ h.below o (hold o ho))
  · intro o ho
    rcases List.mem_append.mp ho with ho | ho
    · exact Nat.lt_succ_of_lt (h.below o (hold o ho))
    · rw [List.mem_singleton.mp ho]
      exact Nat.lt_succ_self _
  · intro o ho serial hs
    rcases List.mem_append.mp ho with ho | ho
    · exact h.parents o (hold o ho) serial hs
    · rw [List.mem_singleton.mp ho] at hs ⊢
      obtain ⟨above, ha, rfl⟩ := Option.map_eq_some_iff.mp hs
      obtain ⟨id, -, hop⟩ := Option.bind_eq_some_iff.mp ha
      exact h.below _ (mem_operations hop)

/-- What becomes of the operations in flight at a finish. -/
theorem operations_finish {e : ProgressEvent} (h : s.finish e = .ok (t, notice)) :
    t.nextSerial = s.nextSerial ∧ t.operations =
      if e.descriptor.kind = .build then [] else without e.descriptor.id s.operations := by
  unfold finish at h
  split at h
  · exact nomatch h
  · rw [← (Prod.mk.inj (Except.ok.inj h)).1]
    split <;> exact ⟨rfl, rfl⟩

theorem Ranked.accept (h : s.Ranked) (ha : s.accept e = .ok (t, notice)) : t.Ranked := by
  have hs : Ranked { s with phase := .active } :=
    ⟨h.serials, h.below, h.parents⟩
  have hp := process_of_accept ha
  cases e with
  | status e =>
    obtain ⟨rfl, -⟩ := Prod.mk.inj (Except.ok.inj hp)
    exact ⟨h.serials, h.below, h.parents⟩
  | progress e =>
    obtain ⟨time, d, progress⟩ := e
    cases progress with
    | started =>
      have ht := congrArg Prod.fst (Except.ok.inj hp)
      change _ = t at ht
      exact ht ▸ hs.start _
    | finished r =>
      obtain ⟨hn, ho⟩ := operations_finish hp
      refine hs.of_sublist ?_ hn
      rw [ho]
      split
      · exact List.nil_sublist _
      · exact List.filter_sublist

theorem ranked_ofEvents (seen : List Event) : (ofEvents seen).Ranked := by
  induction seen using List.reverseRecOn with
  | nil => exact ⟨List.nodup_nil, (fun _ h => nomatch h), fun _ h => nomatch h⟩
  | append_singleton seen e ih =>
    cases ha : (ofEvents seen).accept e with
    | error v => exact ofEvents_concat_of_error ha ▸ ih
    | ok accepted =>
      obtain ⟨t, notice⟩ := accepted
      exact ofEvents_concat ha ▸ ih.accept ha

/-! ## 2. Enclosed events -/

end Stream

/-- No operation is its own parent, and while an operation is in flight its parent is too, unless
nothing is ever heard of the parent. -/
structure Enclosed (events : List Event) : Prop where
  apart : ∀ e : ProgressEvent, .progress e ∈ events → e.descriptor.parent ≠ some e.descriptor.id
  around : ∀ seen rest, events = seen ++ rest → rest ≠ [] →
    ∀ d id, Mark.ofId d.id seen = [⟨d, true⟩] → d.parent = some id →
      Mark.ofId id events = [] ∨ ∃ p, Mark.ofId id seen = [⟨p, true⟩]

/-- The operations around one, innermost first, as far as they are in flight by the events. -/
inductive Lineage (seen : List Event) : Descriptor → List Descriptor → Prop
  | outermost {d : Descriptor} (h : ∀ id ∈ d.parent, Mark.ofId id seen = []) : Lineage seen d []
  | inside {d p : Descriptor} {ps : List Descriptor} (hd : d.parent = some p.id)
      (hp : Mark.ofId p.id seen = [⟨p, true⟩]) (h : Lineage seen p ps) : Lineage seen d (p :: ps)

theorem Mark.mem_ofId {id : OperationId} {m : Mark} {seen : List Event} :
    m ∈ Mark.ofId id seen ↔ m ∈ seen.filterMap Event.mark? ∧ m.descriptor.id = id := by
  rw [ofId, List.mem_filter, decide_eq_true_iff]

/-- What is heard of an id has the id. -/
theorem Mark.id_of_ofId {id : OperationId} {m : Mark} {seen : List Event}
    (h : Mark.ofId id seen = [m]) : m.descriptor.id = id :=
  (mem_ofId.mp (h ▸ List.mem_singleton_self m)).2

/-- The start of an operation is the first that is heard of it. -/
theorem Paired.ofId_of_start {seen rest : List Event} {e : ProgressEvent}
    (hp : Paired (seen ++ .progress e :: rest)) (he : e.progress = .started) :
    Mark.ofId e.descriptor.id seen = [] := by
  obtain ⟨d, hd⟩ := hp e.descriptor.id
  have hm : Event.mark? (.progress e) = some ⟨e.descriptor, true⟩ := by
    simp [Event.mark?, he, Progress.isStart]
  rw [Mark.ofId_append, Mark.ofId_cons_of_mark hm rfl] at hd
  obtain ⟨more, hmore⟩ := hd
  cases hl : Mark.ofId e.descriptor.id seen with
  | nil => rfl
  | cons a l =>
    rw [hl] at hmore
    cases l <;> simp [Mark.nested] at hmore

namespace Stream

variable {seen rest events : List Event} {s t : Stream} {e : Event} {notice : Notice}

/-! ## 3. Operations in flight and the events so far -/

/-- The operations in flight are those of which only the start was seen, and a parent is what its
id leads to now. -/
structure Linked (seen : List Event) (s : Stream) : Prop where
  ranked : s.Ranked
  opens : s.Opens seen
  opened : ∀ id op, s.operation? id = some op → Mark.ofId id seen = [⟨op.descriptor, true⟩]
  links : ∀ id op, s.operation? id = some op →
    op.parent = (op.descriptor.parent.bind s.operation?).map (·.serial)

theorem linked_nil : Linked [] {} where
  ranked := ranked_ofEvents []
  opens _ hd := nomatch hd
  opened _ _ h := nomatch h
  links _ _ h := nomatch h

/-- Nothing is in flight under an id that was not heard of. -/
theorem Linked.operation?_eq_none (h : Linked seen s) {id : OperationId}
    (hid : Mark.ofId id seen = []) : s.operation? id = none := by
  cases hop : s.operation? id with
  | none => rfl
  | some op => exact nomatch hid.symm.trans (h.opened id op hop)

theorem takes_of_accept (ho : s.Opens seen) (hp : Paired (seen ++ e :: rest))
    (ha : s.accept e = .ok (t, notice)) : Takes seen e t notice := by
  obtain ⟨t', notice', hp', ht⟩ := process_active
    (s := { s with phase := .active }) rfl ho hp
  obtain ⟨rfl, rfl⟩ := Prod.mk.inj (Except.ok.inj (hp'.symm.trans (process_of_accept ha)))
  exact ht

theorem operation?_finish {d : Descriptor} {time : Timestamp} {r : OperationResult}
    (h : s.finish ⟨time, d, .finished r⟩ = .ok (t, notice)) (hk : d.kind ≠ .build)
    (id : OperationId) : t.operation? id = if d.id = id then none else s.operation? id := by
  have ht : t.operations = without d.id s.operations := by
    rw [(operations_finish h).2, if_neg hk]
  unfold operation?
  rw [ht]
  split
  · next hid => rw [← hid, lookup_without_self]
  · next hid => exact lookup_without (Ne.symm hid) _

/-- What a parent's id leads to does not change with another operation. -/
theorem bind_operation?_congr {parent : Option OperationId}
    (h : ∀ id ∈ parent, t.operation? id = s.operation? id) :
    parent.bind t.operation? = parent.bind s.operation? := by
  cases parent with
  | none => rfl
  | some id => exact h id rfl

/-- **A start keeps the links**: it is not the parent of anything in flight that it would become the
parent of. -/
theorem Linked.start (h : Linked seen s) {time : Timestamp} {d : Descriptor}
    (hev : events = seen ++ .progress ⟨time, d, .started⟩ :: rest) (hp : Paired events)
    (he : Enclosed events) (id : OperationId) {op : Operation}
    (hop : (s.start ⟨time, d, .started⟩).1.operation? id = some op) :
    Mark.ofId id (seen ++ [.progress ⟨time, d, .started⟩]) = [⟨op.descriptor, true⟩] ∧
      op.parent = (op.descriptor.parent.bind
        (s.start ⟨time, d, .started⟩).1.operation?).map (·.serial) := by
  have hnew : Mark.ofId d.id seen = [] := Paired.ofId_of_start (hev ▸ hp) rfl
  have hmark : (Event.progress ⟨time, d, .started⟩).mark? = some ⟨d, true⟩ := rfl
  have hother {i : OperationId} (hi : i ≠ d.id) :
      (s.start ⟨time, d, .started⟩).1.operation? i = s.operation? i := by
    rw [operation?_start, if_neg (Ne.symm hi)]
  by_cases hid : d.id = id
  · subst hid
    rw [operation?_start, if_pos rfl] at hop
    obtain rfl := Option.some.inj hop
    refine ⟨?_, ?_⟩
    · rw [Mark.ofId_append, hnew, Mark.ofId_cons_of_mark hmark rfl]
      rfl
    · refine (congrArg (Option.map (·.serial)) (bind_operation?_congr ?_)).symm
      intro i hi
      refine hother fun hself => ?_
      exact he.apart ⟨time, d, .started⟩ (hev ▸ by simp) (hself ▸ hi)
  · rw [hother (Ne.symm hid)] at hop
    have hseen := h.opened id op hop
    refine ⟨?_, ?_⟩
    · rw [Mark.ofId_append, hseen, Mark.ofId_cons_of_ne (by rintro m hm; cases hm; exact hid)]
      rfl
    · rw [h.links id op hop]
      refine (congrArg (Option.map (·.serial)) (bind_operation?_congr ?_)).symm
      intro i hi
      refine hother fun hself => ?_
      -- the parent of what is in flight would start only now
      have hopid : op.descriptor.id = id := Mark.id_of_ofId hseen
      rcases he.around seen _ hev (by simp) op.descriptor i (hopid ▸ hseen) hi with hn | ⟨p, hp⟩
      · rw [hev, Mark.ofId_append, hself, Mark.ofId_cons_of_mark hmark rfl] at hn
        simp at hn
      · rw [hself, hnew] at hp
        exact nomatch hp

/-- **A finish keeps the links**: what goes on is not a child of what ends. -/
theorem Linked.finish (h : Linked seen s) {time : Timestamp} {d : Descriptor} {r : OperationResult}
    (hev : events = seen ++ .progress ⟨time, d, .finished r⟩ :: rest) (hne : rest ≠ [])
    (hk : d.kind ≠ .build) (he : Enclosed events)
    (hf : s.finish ⟨time, d, .finished r⟩ = .ok (t, notice)) (id : OperationId) {op : Operation}
    (hop : t.operation? id = some op) :
    Mark.ofId id (seen ++ [.progress ⟨time, d, .finished r⟩]) = [⟨op.descriptor, true⟩] ∧
      op.parent = (op.descriptor.parent.bind t.operation?).map (·.serial) := by
  have hmark : (Event.progress ⟨time, d, .finished r⟩).mark? = some ⟨d, false⟩ := rfl
  have hid : d.id ≠ id := by
    intro hid
    rw [operation?_finish hf hk, if_pos hid] at hop
    exact nomatch hop
  rw [operation?_finish hf hk, if_neg hid] at hop
  have hseen : Mark.ofId id (seen ++ [.progress ⟨time, d, .finished r⟩]) =
      [⟨op.descriptor, true⟩] := by
    rw [Mark.ofId_append, h.opened id op hop,
      Mark.ofId_cons_of_ne (by rintro m hm; cases hm; exact hid)]
    rfl
  refine ⟨hseen, ?_⟩
  rw [h.links id op hop]
  refine (congrArg (Option.map (·.serial)) (bind_operation?_congr ?_)).symm
  intro i hi
  rw [operation?_finish hf hk, if_neg]
  rintro rfl
  -- the parent of what is in flight would be over
  have hopid : op.descriptor.id = id := Mark.id_of_ofId hseen
  have hcut : events = (seen ++ [.progress ⟨time, d, .finished r⟩]) ++ rest := by simpa using hev
  rcases he.around _ rest hcut hne op.descriptor d.id (hopid ▸ hseen) hi with hn | ⟨p, hp⟩
  · rw [hev, Mark.ofId_append, Mark.ofId_cons_of_mark hmark rfl] at hn
    simp at hn
  · rw [Mark.ofId_append, Mark.ofId_cons_of_mark hmark rfl] at hp
    have hlast : some (Mark.mk d false) = some ⟨p, true⟩ := by
      simpa [Mark.ofId] using congrArg List.getLast? hp
    exact absurd (congrArg Mark.isStart (Option.some.inj hlast)) Bool.false_ne_true

/-- **One event keeps the links**, unless it ends the build. -/
theorem Linked.accept (h : Linked seen s) (ho : Orderly events) (he : Enclosed events)
    (hev : events = seen ++ e :: rest) (hne : rest ≠ []) (ha : s.accept e = .ok (t, notice)) :
    Linked (seen ++ [e]) t := by
  have hlast : e.isBuildFinish = false :=
    Bool.eq_false_iff.mpr fun hb => hne ((hev ▸ ho).isBuildFinish_of_split.mp hb)
  have hp := process_of_accept ha
  let active : Stream := { s with phase := .active }
  have hactive : Linked seen active :=
    ⟨⟨h.ranked.serials, h.ranked.below, h.ranked.parents⟩, h.opens, h.opened, h.links⟩
  have hboth : ∀ id op, t.operation? id = some op →
      Mark.ofId id (seen ++ [e]) = [⟨op.descriptor, true⟩] ∧
        op.parent = (op.descriptor.parent.bind t.operation?).map (·.serial) := by
    intro id op hop
    cases e with
    | status e =>
      obtain ⟨rfl, -⟩ := Prod.mk.inj (Except.ok.inj hp)
      refine ⟨?_, h.links id op hop⟩
      rw [Mark.ofId_append, h.opened id op hop]
      rfl
    | progress e =>
      obtain ⟨time, d, progress⟩ := e
      cases progress with
      | started =>
        have ht := congrArg Prod.fst (Except.ok.inj hp)
        change _ = t at ht
        subst ht
        exact hactive.start hev ho.paired he id hop
      | finished r =>
        have hk : d.kind ≠ .build := by simpa [Event.isBuildFinish] using hlast
        exact hactive.finish hev hne hk he hp id hop
  exact ⟨h.ranked.accept ha, ((takes_of_accept h.opens (hev ▸ ho.paired) ha).goesOn hlast).2,
    fun id op hop => (hboth id op hop).1, fun id op hop => (hboth id op hop).2⟩

/-- **All events keep the links**, until the build ends. -/
theorem linked_ofEvents (ho : Orderly events) (he : Enclosed events) (hev : events = seen ++ rest)
    (hne : rest ≠ []) : Linked seen (ofEvents seen) := by
  induction seen using List.reverseRecOn generalizing rest with
  | nil => exact linked_nil
  | append_singleton seen e ih =>
    have hcut : events = seen ++ e :: rest := by simpa using hev
    obtain ⟨notice, ha⟩ := accept_of_orderly (hcut ▸ ho)
    exact (ih hcut (by simp)).accept ho he hcut hne ha

/-! ## 4. What is found around an operation -/

/-- Following the references from an operation leads along its lineage. -/
theorem Linked.ancestorsTo (h : Linked seen s) {d : Descriptor} {ds : List Descriptor}
    (hl : Lineage seen d ds) {op : Operation} {fuel : Nat}
    (hp : op.parent = (d.parent.bind s.operation?).map (·.serial))
    (hlt : ∀ serial, op.parent = some serial → serial < op.serial) (hf : op.serial ≤ fuel) :
    (s.ancestorsTo fuel op).map (·.descriptor) = ds := by
  induction hl generalizing op fuel with
  | @outermost d hnone =>
    have hparent : op.parent = none := by
      rw [hp]
      cases hd : d.parent with
      | none => rfl
      | some id =>
        rw [Option.bind_some, h.operation?_eq_none (hnone id hd)]
        rfl
    cases fuel with
    | zero => rfl
    | succ fuel => simp [Stream.ancestorsTo, hparent]
  | @inside d p ps hd hseen hl ih =>
    obtain ⟨above, ha, rfl⟩ := h.opens p hseen
    have hparent : op.parent = some above.serial := by
      rw [hp, hd, Option.bind_some, ha]
      rfl
    have hbelow := hlt _ hparent
    obtain ⟨fuel, rfl⟩ : ∃ n, fuel = n + 1 := ⟨fuel - 1, by omega⟩
    have hfound : op.parent.bind s.bySerial? = some above := by
      rw [hparent]
      exact h.ranked.bySerial?_eq ha
    rw [Stream.ancestorsTo, hfound]
    dsimp only
    rw [List.map_cons, ih (h.links _ _ ha) (fun _ => h.ranked.parent_lt ha) (by omega)]

/-- Where nothing is in flight, nothing is around anything. -/
theorem ancestorsOf_eq_nil (h : s.operations = []) (notice : Notice) :
    s.ancestorsOf notice = [] := by
  cases notice with
  | status description => rfl
  | operation text op progress =>
    have hnone : op.parent.bind s.bySerial? = none := by
      cases op.parent with
      | none => rfl
      | some serial => simp [bySerial?, h]
    have hall (fuel : Nat) : s.ancestorsTo fuel op = [] := by
      cases fuel with
      | zero => rfl
      | succ fuel => rw [ancestorsTo, hnone]
    exact hall op.serial

/-- **What is found around an operation** when it starts or finishes, before the build has ended:
its lineage. -/
theorem ancestors_of_accept (ho : Orderly events) (he : Enclosed events) {e : ProgressEvent}
    (hev : events = seen ++ .progress e :: rest) (hne : rest ≠ []) {ds : List Descriptor}
    (hl : Lineage (seen ++ [.progress e]) e.descriptor ds)
    (ha : (ofEvents seen).accept (.progress e) = .ok (t, notice)) :
    (t.ancestorsOf notice).map (·.descriptor) = ds := by
  have hs : Linked seen (ofEvents seen) := linked_ofEvents ho he hev (by simp)
  have ht : Linked (seen ++ [.progress e]) t := hs.accept ho he hev hne ha
  have hm : notice.mark? = Event.mark? (.progress e) :=
    (takes_of_accept hs.opens (hev ▸ ho.paired) ha).mark
  have hlast : Event.isBuildFinish (.progress e) = false :=
    Bool.eq_false_iff.mpr fun hb => hne ((hev ▸ ho).isBuildFinish_of_split.mp hb)
  have hp := process_of_accept ha
  obtain ⟨time, d, progress⟩ := e
  cases progress with
  | started =>
    let before : Stream :=
      { ofEvents seen with phase := .active }
    have hop := operation?_start before time d d.id
    rw [if_pos rfl] at hop
    obtain ⟨rfl, rfl⟩ := Prod.mk.inj (Except.ok.inj hp)
    exact ht.ancestorsTo hl (ht.links d.id _ hop) (fun _ => ht.ranked.parent_lt hop) (Nat.le_refl _)
  | finished r =>
    have hk : d.kind ≠ .build := by simpa [Event.isBuildFinish] using hlast
    obtain ⟨op, text, hop, rfl, -⟩ := finish_eq_ok hp
    have hd : op.descriptor = d := congrArg Mark.descriptor (Option.some.inj hm)
    refine ht.ancestorsTo hl ?_ (fun _ => hs.ranked.parent_lt hop) (Nat.le_refl _)
    rw [hs.links d.id op hop, hd]
    -- the operation is not in flight any more, but its parent is not itself
    refine (congrArg (Option.map (·.serial)) (bind_operation?_congr fun i hi => ?_)).symm
    have hself : d.id ≠ i := by
      rintro rfl
      exact he.apart ⟨time, d, .finished r⟩ (hev ▸ by simp) hi
    rw [operation?_finish hp hk, if_neg hself]
    rfl

end Stream

/-- What is around the operation that an event tells of is in flight with it, if anything was ever
heard of it. -/
theorem Enclosed.above {seen rest events : List Event} (he : Enclosed events)
    (ho : Orderly events) {e : ProgressEvent}
    (hev : events = seen ++ .progress e :: rest) (hne : rest ≠ []) {id : OperationId}
    (hd : e.descriptor.parent = some id) :
    Mark.ofId id events = [] ∨ ∃ p, Mark.ofId id (seen ++ [.progress e]) = [⟨p, true⟩] := by
  have hcut : events = (seen ++ [.progress e]) ++ rest := by simpa using hev
  have hid : e.descriptor.id ≠ id := fun hid => he.apart e (hev ▸ by simp) (hid ▸ hd)
  obtain ⟨time, d, progress⟩ := e
  cases progress with
  | started =>
    refine he.around _ rest hcut hne d id ?_ hd
    have hnew : Mark.ofId d.id seen = [] := Paired.ofId_of_start (hev ▸ ho.paired) rfl
    have hmark : (Event.progress ⟨time, d, .started⟩).mark? = some ⟨d, true⟩ := rfl
    rw [Mark.ofId_append, hnew, Mark.ofId_cons_of_mark hmark rfl]
    rfl
  | finished r =>
    have hs := Stream.linked_ofEvents ho he hev (by simp)
    obtain ⟨hseen, -⟩ := Stream.operation?_of_finish hs.opens rfl (hev ▸ ho.paired)
    refine (he.around seen _ hev (by simp) d id hseen hd).imp_right ?_
    rintro ⟨p, hp⟩
    refine ⟨p, ?_⟩
    rw [Mark.ofId_append, hp, Mark.ofId_cons_of_ne (by rintro m hm; cases hm; exact hid)]
    rfl

end BuildStream
