/-
# An event comes through its JSON form

`Wire.encodeEvent` writes an event, and `Wire.decodeEvent` reads back the event that was written
(`decodeEvent_of_loosened`).  It does so from every value that is the written one up to the order
of members and up to members of unknown names, which is what a client of another version may have
written.

The proof follows the form of an event from its leaves upward, one `Reads` lemma for each part.
Two things in it are not routine:

* A tag is taken out of its object before the rest is read, so what is left has to be loosely
  written again (`Json.Loosened.tagged`).
* Failures are nested without limit, and the decoder of a tree has as much fuel as the value it
  starts from is deep (`decodeFailureTo_of_loosened`).  Added members make that value deeper and
  never less deep than the tree, so the fuel lasts.

Times are the one leaf whose text is not read back in all cases: a leap second in the middle of a
minute is written as the second after it.  The theorem asks for the times that the event tells.
-/
import BuildStream.Proofs.Json.Loosened
import BuildStream.Wire.Decode
import BuildStream.Wire.Encode

namespace BuildStream

/-- The times that an event tells. -/
def Event.times : Event → List Timestamp
  | .progress ⟨time, _, .finished r⟩ => [time, r.startTime, r.endTime]
  | .progress ⟨time, _, .started⟩ => [time]
  | .status e => [e.time]

namespace Wire

open Json

/-! ## 1. Leaves -/

theorem reads_text (s : String) : Reads asText (.string s) s
  | _, .string _ => rfl

theorem reads_bool (b : Bool) : Reads asBool (.bool b) b
  | _, .bool _ => rfl

theorem reads_text? (o : Option String) : Reads decodeText? (ofOption .string o) o :=
  .ofOption reads_text nofun false o

theorem reads_kind (isNested : Bool) (k : OperationKind) :
    Reads (decodeKind isNested) (.string k.text) k
  | _, .string _ => by cases k <;> rfl

/-- A word of 64 bits is in the range that is read, whichever word it is. -/
theorem reads_word (n : UInt64) : Reads decodeWord (.nat n.toNat) n
  | _, .number _ => by
    have : (n.toNat : Int) ≤ (UInt64.size - 1 : Nat) :=
      Int.ofNat_le.mpr (Nat.le_sub_one_of_lt n.toNat_lt)
    simp only [decodeWord, asNatural, this, Int.natCast_nonneg, and_self, if_true, Except.map,
      Int.toNat_natCast, UInt64.ofNat_toNat]

theorem reads_time {t : Timestamp} (h : Timestamp.read t.text = some t) :
    Reads decodeTime (encodeTime t) t
  | _, .string _ => by simp only [decodeTime, asText, h, bind, Except.bind]

/-! ## 2. Descriptors -/

theorem reads_id (isNested : Bool) (id : OperationId) :
    Reads (decodeId isNested) (encodeId id) id := by
  intro w h
  obtain ⟨f, hf, holds⟩ := h.fields ["kind", "scope", "sequence"] rfl (by decide)
  have kind := holds.required "kind" (reads_kind isNested id.kind) (by simp)
  have scope := holds.required "scope" (reads_word id.scope) (by simp)
  have sequence := holds.required "sequence" (reads_word id.sequence) (by simp)
  simp only [decodeId, hf, kind, scope, sequence, bind, Except.bind, pure, Except.pure]

theorem reads_details (isNested : Bool) (d : Details) :
    Reads (decodeDetails isNested) (encodeDetails d) d := by
  intro w h
  cases d with
  | build =>
    obtain ⟨rest, hr, h⟩ := h.tagged ["build", "task", "test"] rfl (by simp) isNested
    simp [decodeDetails, hr, h.noFields, bind, Except.bind, pure, Except.pure]
  | task path project description =>
    obtain ⟨rest, hr, h⟩ := h.tagged ["build", "task", "test"] rfl (by simp) isNested
    obtain ⟨f, hf, holds⟩ := h.fields ["task_path", "project_path", "description"] rfl (by decide)
    have path := holds.required "task_path" (reads_text path) (by simp)
    have project := holds.required "project_path" (reads_text project) (by simp)
    have description := holds.withDefault "description" (reads_text? description) (by simp) none
    simp [decodeDetails, hr, hf, path, project, description, bind, Except.bind, pure, Except.pure]
  | test suite className method =>
    obtain ⟨rest, hr, h⟩ := h.tagged ["build", "task", "test"] rfl (by simp) isNested
    obtain ⟨f, hf, holds⟩ := h.fields ["suite_name", "class_name", "method_name"] rfl (by decide)
    have suite := holds.withDefault "suite_name" (reads_text? suite) (by simp) none
    have className := holds.withDefault "class_name" (reads_text? className) (by simp) none
    have method := holds.withDefault "method_name" (reads_text? method) (by simp) none
    simp [decodeDetails, hr, hf, suite, className, method, bind, Except.bind, pure, Except.pure]

theorem reads_descriptor (isNested : Bool) (d : Descriptor) :
    Reads (decodeDescriptor isNested) (encodeDescriptor d) d := by
  intro w h
  obtain ⟨f, hf, holds⟩ :=
    h.fields ["id", "name", "display_name", "parent", "details"] rfl (by decide)
  have id := holds.required "id" (reads_id isNested d.id) (by simp)
  have name := holds.required "name" (reads_text d.name) (by simp)
  have displayName := holds.required "display_name" (reads_text d.displayName) (by simp)
  have parent := holds.optional "parent"
    (.ofOption (reads_id isNested) (fun _ => nofun) isNested d.parent) (by simp)
  have details := holds.required "details" (reads_details isNested d.details) (by simp)
  simp only [decodeDescriptor, hf, id, name, displayName, parent, details, bind, Except.bind, pure,
    Except.pure]

/-! ## 3. Failures -/

theorem encodeFailures_eq_map : ∀ causes : List Failure,
    encodeFailures causes = causes.map encodeFailure
  | [] => rfl
  | _ :: causes => congrArg _ (encodeFailures_eq_map causes)

/-- Fuel for the depth of the value is enough for the tree of failures, by induction on the fuel:
the causes of a failure are less deep than the failure. -/
theorem decodeFailureTo_of_loosened : ∀ {fuel : Nat} {f : Failure} {w : Json},
    (encodeFailure f).Loosened w → w.depth ≤ fuel → decodeFailureTo fuel w = .ok f
  | 0, _, w, _, enough => absurd (depth_pos w) (Nat.not_lt.mpr enough)
  | fuel + 1, ⟨message, description, causes⟩, w, h, enough => by
    obtain ⟨fields, hf, holds⟩ := h.fields ["message", "description", "causes"] rfl (by decide)
    have message := holds.required "message" (reads_text message) (by simp)
    have description := holds.required "description" (reads_text description) (by simp)
    obtain ⟨c, hc, written⟩ := holds ("causes", .array (encodeFailures causes)) (by simp)
    rw [encodeFailures_eq_map] at written
    have causes : (dialect false).listOf (decodeFailureTo fuel) c = .ok causes :=
      written.listOf (fun _ _ hv inside => decodeFailureTo_of_loosened hv
        (by have := depth_lt_of_fields hf hc; omega)) false
    simp only [decodeFailureTo, hf, message, description, Fields.withDefault, hc, causes, bind,
      Except.bind, pure, Except.pure]

theorem reads_failure (f : Failure) : Reads decodeFailure (encodeFailure f) f :=
  fun _ h => decodeFailureTo_of_loosened h (Nat.le_refl _)

theorem reads_failures (causes : List Failure) :
    Reads ((dialect true).listOf decodeFailure) (.array (encodeFailures causes)) causes := by
  intro w h
  rw [encodeFailures_eq_map] at h
  exact h.listOf (fun f v hv _ => reads_failure f v hv) true

/-! ## 4. Results, transitions and status -/

/-- The name of an ending. -/
def outcome : Ending → String
  | .success _ => "success"
  | .skipped _ => "skipped"
  | .failed _ => "failed"
  | .cancelled => "cancelled"

/-- What a result has beside its outcome and its times. -/
def endingMembers : Ending → List (String × Json)
  | .success upToDate => [("up_to_date", .bool upToDate)]
  | .skipped reason => [("reason", .string reason)]
  | .failed causes => [("causes", .array (encodeFailures causes))]
  | .cancelled => []

/-- What a result is written with, whatever its ending. -/
def resultMembers (r : OperationResult) : List (String × Json) :=
  [("start_time", encodeTime r.startTime), ("end_time", encodeTime r.endTime)] ++
    endingMembers r.ending

theorem encodeResult_eq (r : OperationResult) :
    encodeResult r = .object (("outcome", .string (outcome r.ending)) :: resultMembers r) := by
  obtain ⟨_, _, _ | _ | _ | _⟩ := r <;> rfl

theorem names_resultMembers (r : OperationResult) :
    (resultMembers r).map (·.1) =
      ["start_time", "end_time"] ++ endingFields (outcome r.ending) := by
  obtain ⟨_, _, _ | _ | _ | _⟩ := r <;> rfl

theorem nodup_resultFields (e : Ending) :
    (["outcome", "start_time", "end_time"] ++ endingFields (outcome e)).Nodup := by
  cases e <;> simp [outcome, endingFields]

theorem decodeEnding_of_holds {f : Fields Json} {members : List (String × Json)} {e : Ending}
    (h : Holds f members) (hm : ∀ m ∈ endingMembers e, m ∈ members) :
    decodeEnding f (outcome e) = .ok e := by
  cases e with
  | success upToDate =>
    have upToDate := h.required "up_to_date" (reads_bool upToDate) (hm _ (.head _))
    simp [decodeEnding, outcome, upToDate, Except.map]
  | skipped reason =>
    have reason := h.required "reason" (reads_text reason) (hm _ (.head _))
    simp [decodeEnding, outcome, reason, Except.map]
  | failed causes =>
    have causes := h.required "causes" (reads_failures causes) (hm _ (.head _))
    simp [decodeEnding, outcome, causes, Except.map]
  | cancelled => rfl

theorem reads_result (isNested : Bool) {r : OperationResult}
    (hs : Timestamp.read r.startTime.text = some r.startTime)
    (he : Timestamp.read r.endTime.text = some r.endTime) :
    Reads (decodeResult isNested) (encodeResult r) r := by
  intro w h
  rw [encodeResult_eq] at h
  have once := List.nodup_cons.mp (nodup_resultFields r.ending)
  obtain ⟨rest, hr, h⟩ := h.tagged ["success", "skipped", "failed", "cancelled"]
    (by cases r.ending <;> rfl) (names_resultMembers r ▸ once.1) isNested
  obtain ⟨f, hf, holds⟩ := h.fields _ (names_resultMembers r).symm once.2
  have startTime := holds.required "start_time" (reads_time hs) (.head _)
  have endTime := holds.required "end_time" (reads_time he) (.tail _ (.head _))
  have ending := decodeEnding_of_holds holds fun m hm => List.mem_append_right _ hm
  simp only [decodeResult, hr, hf, startTime, endTime, ending, bind, Except.bind, pure, Except.pure]

theorem reads_started : Reads decodeProgress (encodeProgress .started) .started := by
  intro w h
  obtain ⟨rest, hr, h⟩ := h.tagged ["started", "finished"] rfl (by simp) true
  simp [decodeProgress, hr, h.noFields, bind, Except.bind, pure, Except.pure]

theorem reads_finished {r : OperationResult}
    (hs : Timestamp.read r.startTime.text = some r.startTime)
    (he : Timestamp.read r.endTime.text = some r.endTime) :
    Reads decodeProgress (encodeProgress (.finished r)) (.finished r) := by
  intro w h
  obtain ⟨rest, hr, h⟩ := h.tagged ["started", "finished"] rfl (by simp) true
  obtain ⟨f, hf, holds⟩ := h.fields ["result"] rfl (by decide)
  have result := holds.required "result" (reads_result true hs he) (by simp)
  simp [decodeProgress, hr, hf, result, bind, Except.bind, pure, Except.pure]

theorem reads_change (c : StatusChange) : Reads decodeChange (encodeChange c) c := by
  intro w h
  cases c with
  | started id description =>
    obtain ⟨rest, hr, h⟩ := h.tagged ["started", "finished"] rfl (by simp) true
    obtain ⟨f, hf, holds⟩ := h.fields ["id", "description"] rfl (by decide)
    have id := holds.required "id" (reads_id true id) (by simp)
    have description := holds.required "description" (reads_text description) (by simp)
    simp [decodeChange, hr, hf, id, description, bind, Except.bind, pure, Except.pure]
  | finished id =>
    obtain ⟨rest, hr, h⟩ := h.tagged ["started", "finished"] rfl (by simp) true
    obtain ⟨f, hf, holds⟩ := h.fields ["id"] rfl (by decide)
    have id := holds.required "id" (reads_id true id) (by simp)
    simp [decodeChange, hr, hf, id, bind, Except.bind, pure, Except.pure]

/-! ## 5. Events -/

theorem reads_progressEvent {time : Timestamp} (ht : Timestamp.read time.text = some time)
    (d : Descriptor) {p : Progress} (hp : Reads decodeProgress (encodeProgress p) p) :
    Reads decodeEvent (encodeEvent (.progress ⟨time, d, p⟩)) (.progress ⟨time, d, p⟩) := by
  intro w h
  obtain ⟨rest, hr, h⟩ := h.tagged ["progress", "status"] rfl (by simp) false
  obtain ⟨f, hf, holds⟩ := h.fields ["event_time", "descriptor", "progress"] rfl (by decide)
  have time := holds.required "event_time" (reads_time ht) (by simp)
  have descriptor := holds.required "descriptor" (reads_descriptor true d) (by simp)
  have progress := holds.required "progress" hp (by simp)
  simp [decodeEvent, hr, hf, time, descriptor, progress, bind, Except.bind, pure, Except.pure]

theorem reads_statusEvent {e : StatusEvent} (ht : Timestamp.read e.time.text = some e.time) :
    Reads decodeEvent (encodeEvent (.status e)) (.status e) := by
  intro w h
  obtain ⟨rest, hr, h⟩ := h.tagged ["progress", "status"] rfl (by simp) false
  obtain ⟨f, hf, holds⟩ := h.fields ["event_time", "change"] rfl (by decide)
  have time := holds.required "event_time" (reads_time ht) (by simp)
  have change := holds.required "change" (reads_change e.change) (by simp)
  simp [decodeEvent, hr, hf, time, change, bind, Except.bind, pure, Except.pure]

/-- Every event is read, however loosely its JSON form is written. -/
theorem reads_event : ∀ {e : Event}, (∀ t ∈ e.times, Timestamp.read t.text = some t) →
    Reads decodeEvent (encodeEvent e) e
  | .progress ⟨_, d, .started⟩, ht => reads_progressEvent (ht _ (.head _)) d reads_started
  | .progress ⟨_, d, .finished _⟩, ht =>
    reads_progressEvent (ht _ (.head _)) d
      (reads_finished (ht _ (.tail _ (.head _))) (ht _ (.tail _ (.tail _ (.head _)))))
  | .status _, ht => reads_statusEvent (ht _ (.head _))

/-- **The round trip.**  An event whose times are read back as themselves comes back from its JSON
form, and from every value that is this form with the members of any of its objects in another
order and with members of unknown names among them. -/
theorem decodeEvent_of_loosened (e : Event) (times : ∀ t ∈ e.times, Timestamp.read t.text = some t) :
    decodeEvent (encodeEvent e) = .ok e ∧
      ∀ w, (encodeEvent e).Loosened w → decodeEvent w = .ok e :=
  ⟨reads_event times _ (.refl _), reads_event times⟩

namespace Turned

/-- A failed build, with a cause inside a cause. -/
def event : Event :=
  .progress ⟨.epoch, ⟨⟨.build, 1, 18446744073709551615⟩, "demo", "Build demo", none, .build⟩,
    .finished ⟨.epoch, .epoch,
      .failed [⟨"task", "task\nCaused by: exit", [⟨"exit", "exit", []⟩]⟩]⟩⟩

/-- An object with its members from the last to the first, the added ones in front. -/
def turned (members added : List (String × Json)) : Json := .object (members ++ added).reverse

/-- The event as a newer engine writes it. -/
def written : Json :=
  turned
    [("channel", .string "progress"), ("event_time", encodeTime .epoch),
      ("descriptor", encodeDescriptor
        ⟨⟨.build, 1, 18446744073709551615⟩, "demo", "Build demo", none, .build⟩),
      ("progress", turned
        [("type", .string "finished"),
          ("result", turned
            [("outcome", .string "failed"), ("start_time", encodeTime .epoch),
              ("end_time", encodeTime .epoch),
              ("causes", .array [turned
                [("message", .string "task"), ("description", .string "task\nCaused by: exit"),
                  ("causes", .array [encodeFailure ⟨"exit", "exit", []⟩])]
                [("location", .object [("message", .string "build.toml")])]])]
            [("reason", .null)])]
        [])]
    [("version", .nat 2), ("version", .null)]

theorem loosened_turned {members same added : List (String × Json)}
    (names : same.map (·.1) = members.map (·.1))
    (values : List.Forall₂ Loosened (members.map (·.2)) (same.map (·.2)))
    (unknown : ∀ m ∈ added, m.1 ∉ members.map (·.1)) :
    (Json.object members).Loosened (turned same added) :=
  .object same added names values unknown (List.reverse_perm _)

theorem loosened_written : (encodeEvent event).Loosened written := by
  refine loosened_turned rfl (.cons (.refl _) (.cons (.refl _) (.cons (.refl _) (.cons ?progress
    .nil)))) (by simp)
  refine loosened_turned rfl (.cons (.refl _) (.cons ?result .nil)) (by simp)
  refine loosened_turned rfl (.cons (.refl _) (.cons (.refl _) (.cons (.refl _) (.cons
    (.array (.cons ?failure .nil)) .nil)))) (by simp)
  exact loosened_turned rfl (.cons (.refl _) (.cons (.refl _) (.cons (.refl _) .nil))) (by simp)

theorem decodeEvent_written :
    (∀ t ∈ event.times, Timestamp.read t.text = some t) ∧ (encodeEvent event).Loosened written ∧
      decodeEvent written = .ok event :=
  have times : ∀ t ∈ event.times, Timestamp.read t.text = some t := by decide +kernel
  ⟨times, loosened_written, (decodeEvent_of_loosened event times).2 _ loosened_written⟩

end Turned

end Wire

end BuildStream
