/-
# The status line

Status lines come and go with the operations they describe, and every change is told with the line
that is then on top, the latest of those that are still there.  So what a status listener is told
follows from the changes alone (`Stream.linesOf`): after each of them, the top of what the changes
so far have left.

A stream takes the changes as they arrive and does nothing else to the lines, except that it drops
them when it is closed (`statuses_ofEvents`).  A listener that closes the stream ends what is told,
and until then nothing is different (`described_cases`).
-/
import BuildStream.Proofs.Stream.Listening

namespace BuildStream

/-! ## 1. Changes -/

/-- The status lines after a change, the latest first. -/
def StatusChange.apply (lines : List (OperationId × String)) :
    StatusChange → List (OperationId × String)
  | started id description => (id, description) :: lines
  | finished id => Stream.popStatus id lines

/-- The change of the status lines that an event tells of. -/
def Event.change? : Event → Option StatusChange
  | progress _ => none
  | status e => some e.change

/-- The status line that a notice tells of. -/
def Notice.description? : Notice → Option String
  | operation _ _ _ => none
  | status description => some description

namespace Stream

/-- The status lines after some changes, the latest first. -/
def linesAfter (changes : List StatusChange) : List (OperationId × String) :=
  changes.foldl StatusChange.apply []

/-- The text on top of status lines; it is empty if there is none. -/
def topLine (lines : List (OperationId × String)) : String := (lines.head?.map (·.2)).getD ""

/-- What is on top after each of some changes. -/
def linesOf (changes : List StatusChange) : List String :=
  changes.inits.tail.map fun sofar => topLine (linesAfter sofar)

/-- The changes that events tell of, in order. -/
def changes (events : List Event) : List StatusChange := events.filterMap Event.change?

variable {listeners : Listeners} {past : List Call} {s t : Stream}
  {seen rest events : List Event} {e : Event} {notice : Notice} {place : Nat}

theorem linesAfter_concat (sofar : List StatusChange) (change : StatusChange) :
    linesAfter (sofar ++ [change]) = change.apply (linesAfter sofar) := by
  rw [linesAfter, List.foldl_append]
  rfl

/-- A list that grows has one more beginning. -/
theorem tail_inits_concat {α : Type} (l : List α) (a : α) :
    (l ++ [a]).inits.tail = l.inits.tail ++ [l ++ [a]] := by
  rw [List.inits_append, List.tail_append_of_ne_nil (by cases l <;> simp)]
  rfl

theorem linesOf_concat (sofar : List StatusChange) (change : StatusChange) :
    linesOf (sofar ++ [change]) =
      linesOf sofar ++ [topLine (linesAfter (sofar ++ [change]))] := by
  rw [linesOf, tail_inits_concat, List.map_append]
  rfl

theorem changes_append (seen events : List Event) :
    changes (seen ++ events) = changes seen ++ changes events :=
  List.filterMap_append

theorem linesOf_changes_concat (seen : List Event) (e : Event) :
    linesOf (changes (seen ++ [e])) = linesOf (changes seen) ++
      (e.change?.map fun change => topLine (change.apply (linesAfter (changes seen)))).toList := by
  rw [changes_append]
  cases e with
  | progress e =>
    have hnone : changes [.progress e] = [] := rfl
    rw [hnone, List.append_nil]
    exact (List.append_nil _).symm
  | status e =>
    have hone : changes [.status e] = [e.change] := rfl
    rw [hone, linesOf_concat, linesAfter_concat]
    rfl

/-! ## 2. The status lines of a stream -/

theorem changeStatus_eq (s : Stream) (change : StatusChange) :
    s.changeStatus change = ({ s with statuses := change.apply s.statuses },
      .status (topLine (change.apply s.statuses))) := by
  cases change <;> rfl

/-- An event changes the status lines as it says, unless it ends the build. -/
theorem statuses_of_accept (ha : s.accept e = .ok (t, notice)) (hb : e.isBuildFinish = false) :
    t.statuses = e.change?.elim s.statuses (StatusChange.apply s.statuses) := by
  have hp := process_of_accept ha
  cases e with
  | status e =>
    have hc := (changeStatus_eq _ e.change).symm.trans (Except.ok.inj hp)
    rw [← (Prod.mk.inj hc).1]
    rfl
  | progress e =>
    obtain ⟨time, d, progress⟩ := e
    cases progress with
    | started =>
      obtain ⟨rfl, -⟩ := Prod.mk.inj (Except.ok.inj hp)
      rfl
    | finished r =>
      have hk : d.kind ≠ .build := by simpa [Event.isBuildFinish] using hb
      have hf : finish _ ⟨time, d, .finished r⟩ = .ok (t, notice) := hp
      unfold finish at hf
      split at hf
      · exact absurd hf (by simp)
      · rw [← (Prod.mk.inj (Except.ok.inj hf)).1, if_neg hk]
        rfl

/-- **The status lines of a stream** are those that the changes so far have left, until the build
ends. -/
theorem statuses_ofEvents (ho : Orderly events) (hev : events = seen ++ rest) (hne : rest ≠ []) :
    (ofEvents seen).statuses = linesAfter (changes seen) := by
  induction seen using List.reverseRecOn generalizing rest with
  | nil => rfl
  | append_singleton seen e ih =>
    have hcut : events = seen ++ e :: rest := by simpa using hev
    have hlast : e.isBuildFinish = false :=
      Bool.eq_false_iff.mpr fun hb => hne ((hcut ▸ ho).isBuildFinish_of_split.mp hb)
    obtain ⟨notice, ha⟩ := accept_of_orderly (hcut ▸ ho)
    rw [statuses_of_accept ha hlast, ih hcut (by simp), changes_append]
    cases e with
    | progress e =>
      have hnone : changes [.progress e] = [] := rfl
      rw [hnone, List.append_nil]
      rfl
    | status e => exact (linesAfter_concat _ _).symm

/-! ## 3. What status listeners are told -/

/-- The status lines that the listener at a place is told of, in order. -/
def described (place : Nat) (outcomes : List Outcome) : List String :=
  (outcomes.flatMap (·.heard fun _ => place)).filterMap Notice.description?

theorem described_append (place : Nat) (outcomes more : List Outcome) :
    described place (outcomes ++ more) = described place outcomes ++ described place more := by
  simp only [described, List.flatMap_append, List.filterMap_append]

/-- A status listener is told of an accepted change, and of nothing else. -/
theorem described_feed (hplace : place < listeners.status.length)
    (ha : s.accept e = .ok (t, notice)) (hb : (s.feed listeners past e).2.broken = false) :
    described place [(s.feed listeners past e).2] = notice.description?.toList := by
  rw [described, List.flatMap_singleton,
    (heard_of_reaches (reaches_feed ha listeners past) fun _ => place).2 hb]
  cases notice with
  | status description => exact congrArg (List.filterMap Notice.description?) (if_pos hplace)
  | operation text op progress => split <;> rfl

/-- What is told of an event is the line on top after it, if it changes the status lines. -/
theorem description?_of_accept (ha : s.accept e = .ok (t, notice)) :
    notice.description? = e.change?.map fun change => topLine (change.apply s.statuses) := by
  have hp := process_of_accept ha
  cases e with
  | status e =>
    have hc := (changeStatus_eq _ e.change).symm.trans (Except.ok.inj hp)
    rw [← (Prod.mk.inj hc).2]
    rfl
  | progress e =>
    obtain ⟨time, d, progress⟩ := e
    cases progress with
    | started =>
      obtain ⟨-, rfl⟩ := Prod.mk.inj (Except.ok.inj hp)
      rfl
    | finished r =>
      obtain ⟨op, text, -, rfl, -⟩ := finish_eq_ok hp
      rfl

/-- After some of the events, either nobody closed the stream, which is then the one with nobody
listening, and all lines were told; or somebody closed it, and a beginning of them was. -/
theorem described_cases (ho : Orderly events) (hplace : place < listeners.status.length)
    (hev : events = seen ++ rest)
    (hb : ∀ o ∈ (feedAll listeners past {} seen).2, o.broken = false) :
    ((feedAll listeners past {} seen).1 = ofEvents seen ∧
      described place (feedAll listeners past {} seen).2 = linesOf (changes seen)) ∨
    (¬ listeners.NeverClose ∧ (feedAll listeners past {} seen).1.phase = .closed ∧
      described place (feedAll listeners past {} seen).2 <+: linesOf (changes seen)) := by
  induction seen using List.reverseRecOn generalizing rest with
  | nil => exact .inl ⟨rfl, rfl⟩
  | append_singleton seen e ih =>
    have hcut : events = seen ++ e :: rest := by simpa using hev
    have htold : described place (feedAll listeners past {} (seen ++ [e])).2 =
        described place (feedAll listeners past {} seen).2 ++
          described place [((feedAll listeners past {} seen).1.feed listeners
            (remembered past (feedAll listeners past {} seen).2) e).2] := by
      rw [feedAll_append]
      exact described_append _ _ _
    simp only [feedAll_append, feedAll, List.forall_mem_append, List.forall_mem_singleton] at hb
    rw [feedAll_concat, htold, linesOf_changes_concat]
    rcases ih hcut hb.1 with ⟨hs, hall⟩ | ⟨hn, hs, hpart⟩
    · obtain ⟨notice, ha⟩ := accept_of_orderly (hcut ▸ ho)
      rw [← hs] at ha
      rw [described_feed hplace ha hb.2, description?_of_accept ha, hs, hall,
        statuses_ofEvents ho hcut (by simp)]
      have htells := tells_feed ha listeners (remembered past (feedAll listeners past {} seen).2)
      rcases htells.final_cases with ⟨ht, -⟩ | ⟨ht, c, hc, hcloses⟩
      · exact .inl ⟨hs ▸ ht, rfl⟩
      · refine .inr ⟨fun hn => ?_, ?_, List.prefix_refl _⟩
        · obtain ⟨-, hopen, -⟩ := htells.of_neverClose (hn notice.kind)
          exact absurd hcloses (by simp [hopen c hc])
        · rw [← hs, ht]
          rfl
    · rw [feed_of_closed hs]
      refine .inr ⟨hn, hs, ?_⟩
      have hnone : described place [{ violation := some (.afterClose e.text) }] = [] := rfl
      rw [hnone, List.append_nil]
      exact hpart.trans (List.prefix_append _ _)

/-- **What a status listener is told** of orderly events, or of a beginning of some, whose delivery
is not broken off: what is on top after each of their changes, all of it or, if some listener closes
the stream, a beginning of it. -/
theorem described_feedAll (ho : Orderly (events ++ rest)) (hplace : place < listeners.status.length)
    (hb : ∀ o ∈ (feedAll listeners past {} events).2, o.broken = false) :
    described place (feedAll listeners past {} events).2 <+: linesOf (changes events) ∧
      (listeners.NeverClose →
        described place (feedAll listeners past {} events).2 = linesOf (changes events)) := by
  rcases described_cases ho hplace rfl hb with ⟨-, hall⟩ | ⟨hn, -, hpart⟩
  · exact ⟨hall ▸ List.prefix_refl _, fun _ => hall⟩
  · exact ⟨hpart, fun h => absurd h hn⟩

end Stream

end BuildStream
