/-
# Ids and stamps

A run has an id and a text of it, and both tell which run it is.

* The id is made of the kind and the stamp and holds both, so two runs have one id only if they
  agree in both (`Generator.idFor_inj`).
* The text is the kind, a colon, the scope, a dot and the sequence.  There is no colon in the kind
  and no dot in the digits of a scope, so the three parts can be found again (`OperationId.text_inj`).
* Stamps are handed out by counters that anybody may call at any time.  Whatever the order of the
  calls is, the stamps of a generator are its first ones, and generators have scopes of their own
  (`Counters.Counts`).  So no stamp comes twice (`Counters.nodup_stamps`).
-/
import BuildStream.Proofs.Stamps

namespace BuildStream

/-! ## 1. Ids -/

theorem Generator.idFor_inj {g g' : Generator} {run run' : Handle} :
    g.idFor run = g'.idFor run' ↔ run.kind = run'.kind ∧ run.stamp = run'.stamp := by
  simp only [idFor, OperationId.ofStamp, OperationId.mk.injEq]
  refine and_congr_right fun _ => ⟨fun ⟨hscope, hseq⟩ => ?_, fun h => ?_⟩
  · exact congrArg₂ Stamp.mk hscope hseq
  · exact ⟨congrArg Stamp.scope h, congrArg Stamp.sequence h⟩

/-! ## 2. Texts -/

/-- A list can be cut at a sign only once, if the sign is not in what comes before. -/
theorem append_cons_inj {α : Type} {sign : α} {before before' after after' : List α}
    (hb : sign ∉ before) (hb' : sign ∉ before')
    (h : before ++ sign :: after = before' ++ sign :: after') : before = before' ∧ after = after' := by
  induction before generalizing before' with
  | nil =>
    cases before' with
    | nil => exact ⟨rfl, (List.cons.inj h).2⟩
    | cons x xs => exact absurd (List.cons.inj h).1 fun he => hb' (he ▸ List.mem_cons_self)
  | cons x xs ih =>
    cases before' with
    | nil => exact absurd (List.cons.inj h).1 fun he => hb (he ▸ List.mem_cons_self)
    | cons y ys =>
      obtain ⟨rfl, hrest⟩ := List.cons.inj h
      obtain ⟨rfl, he⟩ := ih (fun hm => hb (List.mem_cons_of_mem _ hm))
        (fun hm => hb' (List.mem_cons_of_mem _ hm)) hrest
      exact ⟨rfl, he⟩

namespace OperationKind

theorem colon_notMem_text (kind : OperationKind) : ':' ∉ kind.text.toList := by
  cases kind <;> decide

theorem text_inj {kind kind' : OperationKind} (h : kind.text.toList = kind'.text.toList) :
    kind = kind' := by
  cases kind <;> cases kind' <;> first | rfl | exact absurd h (by decide)

end OperationKind

theorem dot_notMem_repr (n : Nat) : '.' ∉ (Nat.repr n).toList := by
  rw [Nat.toList_repr]
  intro hm
  have hdigit := Nat.isDigit_of_mem_toDigits (by decide) (by decide) hm
  exact absurd hdigit (by decide)

namespace OperationId

theorem toList_text (id : OperationId) : id.text.toList =
    id.kind.text.toList ++
      ':' :: ((Nat.repr id.scope.toNat).toList ++ '.' :: (Nat.repr id.sequence.toNat).toList) := by
  simp [text]

/-- **The text of an id tells which id it is.** -/
theorem text_inj {id id' : OperationId} : id.text = id'.text ↔ id = id' := by
  refine ⟨fun h => ?_, congrArg text⟩
  have hlist := congrArg String.toList h
  rw [toList_text, toList_text] at hlist
  obtain ⟨hkind, hrest⟩ := append_cons_inj (OperationKind.colon_notMem_text _)
    (OperationKind.colon_notMem_text _) hlist
  obtain ⟨hscope, hseq⟩ := append_cons_inj (dot_notMem_repr _) (dot_notMem_repr _) hrest
  have number {a b : UInt64} (he : (Nat.repr a.toNat).toList = (Nat.repr b.toNat).toList) :
      a = b := by
    -- the digits are read back
    have hread := congrArg (fun digits => Nat.ofDigitChars 10 digits 0) he
    exact UInt64.toNat_inj.mp (by simpa using hread)
  cases id
  cases id'
  obtain rfl := OperationKind.text_inj hkind
  obtain rfl := number hscope
  obtain rfl := number hseq
  rfl

end OperationId

/-! ## 3. Stamps -/

/-- The generator that a process creates after so many others, as it is created. -/
def Generator.created (i : Nat) : Generator := ⟨1 + UInt64.ofNat i, 1⟩

theorem Generator.created_inj {i j : Nat} (hi : i < UInt64.size) (hj : j < UInt64.size)
    (h : (created i).scope = (created j).scope) : i = j :=
  counter_inj hi hj h

namespace Counters

/-- What was handed out so far: of each generator its first stamps, and nothing else. -/
structure Counts (c : Counters) (handed : List Stamp) : Prop where
  scopes : c.scopes.next = (Generator.created c.generators.length).scope
  generators : ∀ i g, c.generators[i]? = some g → ∃ n, g = (Generator.created i).after n ∧
    (handed.filter fun stamp => decide (stamp.scope = (Generator.created i).scope)) =
      (Generator.created i).firstStamps n
  owner : ∀ stamp ∈ handed, ∃ i < c.generators.length,
    stamp.scope = (Generator.created i).scope

variable {c : Counters} {handed : List Stamp}

theorem counts_nil : Counts {} [] where
  scopes := rfl
  generators := fun _ _ h => nomatch h
  owner := fun _ h => nomatch h

/-- A new generator has handed out nothing, and its scope is a new one. -/
theorem Counts.create (h : Counts c handed) (hb : c.generators.length < UInt64.size) :
    Counts (c.call .create).1 handed where
  scopes := by
    simp only [call, Scopes.generator, h.scopes, Generator.created, List.length_append,
      List.length_singleton, Generator.counter_succ]
  generators i g hg := by
    simp only [call, Scopes.generator, h.scopes] at hg
    rcases Nat.lt_or_ge i c.generators.length with hi | hi
    · rw [List.getElem?_append_left hi] at hg
      exact h.generators i g hg
    · rw [List.getElem?_append_right hi, List.getElem?_singleton] at hg
      split at hg
      · next he =>
        obtain rfl := Option.some.inj hg
        obtain rfl : i = c.generators.length := by omega
        refine ⟨0, (Generator.after_zero _).symm, List.filter_eq_nil_iff.mpr fun stamp hs he => ?_⟩
        obtain ⟨j, hj, hscope⟩ := h.owner stamp hs
        have hij := Generator.created_inj hb (by omega) ((of_decide_eq_true he).symm.trans hscope)
        omega
      · exact nomatch hg
  owner stamp hs := by
    obtain ⟨i, hi, hscope⟩ := h.owner stamp hs
    refine ⟨i, ?_, hscope⟩
    simp only [call, List.length_append]
    omega

/-- A stamp is the next one of its generator, and of no other. -/
theorem Counts.allocate (h : Counts c handed) (hb : c.generators.length ≤ UInt64.size) (i : Nat) :
    Counts (c.call (.allocate i)).1 (handed ++ (c.call (.allocate i)).2.toList) := by
  cases hg : c.generators[i]? with
  | none => simpa [call, hg] using h
  | some g =>
    obtain ⟨n, rfl, hn⟩ := h.generators i g hg
    have hi : i < c.generators.length := (List.getElem?_eq_some_iff.mp hg).1
    have hc : c.call (.allocate i) = ({ c with
        generators := c.generators.set i ((Generator.created i).after (n + 1)) },
        some ((Generator.created i).nth n)) := by
      simp only [call, hg, Generator.allocate_after]
    rw [hc]
    refine ⟨?_, fun j g' hg' => ?_, fun stamp hs => ?_⟩
    · rw [List.length_set]
      exact h.scopes
    · rw [Option.toList_some, List.filter_append]
      simp only [List.getElem?_set, hi, if_true] at hg'
      split at hg'
      · next he =>
        subst he
        obtain rfl := Option.some.inj hg'
        refine ⟨n + 1, rfl, ?_⟩
        rw [hn, Generator.firstStamps_succ, List.filter_cons_of_pos (by simp [Generator.nth])]
        rfl
      · next hne =>
        obtain ⟨m, rfl, hm⟩ := h.generators j g' hg'
        have hj : j < c.generators.length := (List.getElem?_eq_some_iff.mp hg').1
        refine ⟨m, rfl, ?_⟩
        have hother : ((Generator.created i).nth n).scope ≠ (Generator.created j).scope :=
          fun he => hne (Generator.created_inj (by omega) (by omega) he)
        rw [hm, List.filter_cons_of_neg (by simpa using hother)]
        exact List.append_nil _
    · rw [List.length_set]
      rcases List.mem_append.mp hs with hs | hs
      · exact h.owner stamp hs
      · rw [List.mem_singleton.mp hs]
        exact ⟨i, hi, rfl⟩

theorem length_call (c : Counters) (k : Call) :
    (c.call k).1.generators.length = c.generators.length + [k].count .create := by
  cases k with
  | create => simp [call]
  | allocate i => cases hg : c.generators[i]? <;> simp [call, hg]

theorem length_after (c : Counters) (calls : List Call) :
    (c.after calls).generators.length = c.generators.length + calls.count .create := by
  induction calls generalizing c with
  | nil => rfl
  | cons k calls ih =>
    rw [after, List.foldl_cons, ← after, ih, length_call, ← List.singleton_append (l := calls),
      List.count_append]
    omega

/-- **Whatever the order of the calls**, each generator counts by itself. -/
theorem Counts.calls (h : Counts c handed) (calls : List Call)
    (hb : (c.after calls).generators.length ≤ UInt64.size) :
    Counts (c.after calls) (handed ++ c.stamps calls) := by
  induction calls generalizing c handed with
  | nil => simpa [after, stamps] using h
  | cons k calls ih =>
    rw [stamps, ← List.append_assoc]
    refine ih ?_ hb
    have hlen : ((c.call k).1.after calls).generators.length ≤ UInt64.size := hb
    rw [length_after, length_call] at hlen
    cases k with
    | create =>
      rw [List.count_singleton_self] at hlen
      simpa [call] using h.create (by omega)
    | allocate i => exact h.allocate (by omega) i

/-- A stamp that comes twice would come twice among those of its generator. -/
theorem Counts.nodup (h : Counts c handed) (hb : handed.length ≤ UInt64.size) : handed.Nodup := by
  refine List.nodup_iff_count_le_one.mpr fun stamp => ?_
  by_cases hm : stamp ∈ handed
  · obtain ⟨i, hi, hscope⟩ := h.owner stamp hm
    obtain ⟨n, -, hn⟩ := h.generators i _ (List.getElem?_eq_getElem hi)
    have hlen : n ≤ UInt64.size := by
      have hle := List.length_filter_le
        (fun stamp => decide (stamp.scope = (Generator.created i).scope)) handed
      rw [hn, Generator.length_firstStamps] at hle
      omega
    have hnodup := Generator.nodup_firstStamps (g := Generator.created i) hlen
    rw [← hn] at hnodup
    rw [← List.count_filter (p := fun stamp => decide (stamp.scope = (Generator.created i).scope))
      (decide_eq_true hscope)]
    exact List.nodup_iff_count_le_one.mp hnodup stamp
  · simp [List.count_eq_zero.mpr hm]

/-- A call that creates a generator hands out no stamp, and any other at most one. -/
theorem length_stamps_le (c : Counters) (calls : List Call) :
    (c.stamps calls).length ≤ calls.countP fun k => decide (k ≠ .create) := by
  induction calls generalizing c with
  | nil => exact Nat.le_refl _
  | cons k calls ih =>
    have ih := ih (c.call k).1
    rw [stamps, List.length_append, List.countP_cons]
    cases k with
    | create => simpa [call] using ih
    | allocate i => cases hg : c.generators[i]? <;> simp [call, hg] at ih ⊢ <;> omega

/-- **No stamp comes twice**, as long as no counter comes back to where it began. -/
theorem nodup_stamps {calls : List Call} (hc : calls.count .create ≤ UInt64.size)
    (hs : (calls.countP fun k => decide (k ≠ .create)) ≤ UInt64.size) :
    (stamps {} calls).Nodup := by
  have hlen : (after {} calls).generators.length ≤ UInt64.size := by
    rw [length_after]
    simpa using hc
  exact (counts_nil.calls calls hlen).nodup (Nat.le_trans (length_stamps_le {} calls) hs)

end Counters

end BuildStream
