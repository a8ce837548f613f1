/-
# Failures and their texts

A failure is made in one of two ways, and each writes the text of an entry in a way of its own.

* From an error: at every level the messages of all causes below are written again, in one go.
* By hand: a failure starts with a message alone, and each cause that it is given adds its own
  finished text to the end (`Failure.Built`).

For a chain of messages the two ways give the same failure, if the one that works by hand starts
from the innermost message (`Failure.ofMessages_cons`).  So what is said about failures built by
hand holds of those of errors too.

Of a failure that was built by hand, whatever the shape of the tree, the text of every entry is its
message and the texts of its causes (`Failure.Built.spelled`).  Nothing else can be said of such
failures: where all entries are so, the failure can be built (`Failure.built_of_spelled`).
-/
import BuildStream.Failure
import Mathlib.Data.List.Basic

namespace BuildStream

theorem ErrorChain.messages_ne_nil (e : ErrorChain) : e.messages ≠ [] := List.cons_ne_nil _ _

namespace Failure

/-! ## 1. The failure of an error -/

/-- The messages from a failure inward along first causes. -/
def messages (f : Failure) : List String := f.chain.map (·.message)

theorem messages_ofMessages (message : String) (causes : List String) :
    (ofMessages message causes).messages = message :: causes := by
  induction causes generalizing message with
  | nil => simp [messages, ofMessages, chain, chainOfFirst]
  | cons cause causes ih =>
    have hrest : (ofMessages cause causes).chain.map (·.message) = cause :: causes := ih cause
    rw [messages, ofMessages, chain, chainOfFirst, List.map_cons, hrest]

/-- **The messages of an error** are those of its failure. -/
theorem messages_ofError (e : ErrorChain) : (ofError e).messages = e.messages :=
  messages_ofMessages e.message e.causes

theorem rootCause_ofError (e : ErrorChain) :
    (ofError e).rootCause = e.messages.getLast e.messages_ne_nil := by
  have hm : (ofError e).chain.map (·.message) = e.messages := messages_ofError e
  rw [rootCause, hm, List.getLastD_eq_getLast?, List.getLast?_eq_some_getLast e.messages_ne_nil]
  rfl

/-- What is written below a text does not depend on what is above it. -/
theorem rendered_append (above text : String) (causes : List String) :
    rendered (above ++ text) causes = above ++ rendered text causes := by
  induction causes generalizing text with
  | nil => rfl
  | cons cause causes ih =>
    have htext : above ++ text ++ causedBy ++ cause = above ++ (text ++ causedBy ++ cause) := by
      simp only [String.append_assoc]
    rw [rendered, htext, ih, rendered]

/-- Writing cause after cause joins the messages. -/
theorem rendered_eq_intercalate (message : String) (causes : List String) :
    rendered message causes = causedBy.intercalate (message :: causes) := by
  induction causes generalizing message with
  | nil => rw [rendered, String.intercalate_singleton]
  | cons cause causes ih =>
    rw [rendered, rendered_append, ih, String.intercalate_cons_cons]

@[simp] theorem description_ofMessages (message : String) (causes : List String) :
    (ofMessages message causes).description = rendered message causes := by
  cases causes <;> rfl

/-- **Each entry of a chain** is the failure of the messages from its own inward. -/
theorem exists_of_getElem?_chain {message : String} {causes : List String} {depth : Nat}
    {entry : Failure} (h : (ofMessages message causes).chain[depth]? = some entry) :
    ∃ own below, (message :: causes).drop depth = own :: below ∧ entry = ofMessages own below := by
  induction causes generalizing message depth with
  | nil =>
    rw [ofMessages, chain, chainOfFirst] at h
    cases depth with
    | zero => exact ⟨message, [], rfl, (Option.some.inj h).symm⟩
    | succ depth => exact nomatch h
  | cons cause causes ih =>
    cases depth with
    | zero =>
      rw [ofMessages, chain] at h
      exact ⟨message, cause :: causes, rfl, (Option.some.inj h).symm⟩
    | succ depth =>
      rw [ofMessages, chain, chainOfFirst, List.getElem?_cons_succ] at h
      exact ih h

theorem description_of_getElem?_chain {e : ErrorChain} {depth : Nat} {entry : Failure}
    (h : (ofError e).chain[depth]? = some entry) :
    entry.description = causedBy.intercalate (e.messages.drop depth) := by
  obtain ⟨own, below, hd, rfl⟩ := exists_of_getElem?_chain h
  have hm : e.messages.drop depth = own :: below := hd
  rw [hm, description_ofMessages, rendered_eq_intercalate]

/-! ## 2. The same failure from the inside -/

/-- **An outer message** is a failure whose cause is that of the messages inside. -/
theorem ofMessages_cons (message cause : String) (causes : List String) :
    ofMessages message (cause :: causes) =
      (ofMessage message).addCause (ofMessages cause causes) := by
  have htext : rendered message (cause :: causes) =
      message ++ causedBy ++ rendered cause causes := by
    rw [rendered, rendered_append]
  rw [ofMessages, htext, addCause, description_ofMessages]
  rfl

/-- The failure of the messages of an error, built from the innermost message outward. -/
def insideOut (e : ErrorChain) : Failure :=
  e.messages.dropLast.foldr (fun message inner => (ofMessage message).addCause inner)
    (ofMessage (e.messages.getLast e.messages_ne_nil))

/-- **Both ways lead to one failure.** -/
theorem ofError_eq_insideOut (e : ErrorChain) : ofError e = insideOut e := by
  obtain ⟨message, causes⟩ := e
  induction causes generalizing message with
  | nil => rfl
  | cons cause causes ih =>
    have houter : insideOut ⟨message, cause :: causes⟩ =
        (ofMessage message).addCause (insideOut ⟨cause, causes⟩) := rfl
    rw [houter, ← ih cause]
    exact ofMessages_cons message cause causes

/-! ## 3. Failures built by hand -/

/-- Failures that are built from messages, each complete before it becomes a cause. -/
inductive Built : Failure → Prop
  | ofMessage (message : String) : Built (ofMessage message)
  | addCause {f cause : Failure} : Built f → Built cause → Built (f.addCause cause)

/-- The entries of a failure are itself and those of its causes. -/
inductive HasEntry : Failure → Failure → Prop
  | self (f : Failure) : HasEntry f f
  | cause {f cause entry : Failure} : cause ∈ f.causes → HasEntry cause entry → HasEntry f entry

/-- The text of an entry is its message, and below it the texts of its causes in order. -/
def Spelled (f : Failure) : Prop :=
  f.description = f.message ++ String.join (f.causes.map fun cause => causedBy ++ cause.description)

variable {f : Failure}

theorem spelled_ofMessage (message : String) : (ofMessage message).Spelled :=
  String.append_empty.symm

theorem Spelled.addCause (h : f.Spelled) (cause : Failure) : (f.addCause cause).Spelled := by
  have hf : f.description = _ := h
  simp [Spelled, Failure.addCause, hf, String.append_assoc]

/-- **All entries of what is built** are spelled out: a new cause goes to the end of its parent's
text, and the entries that were there before are as they were. -/
theorem Built.spelled (h : Built f) {entry : Failure} (he : f.HasEntry entry) : entry.Spelled := by
  induction h generalizing entry with
  | ofMessage message =>
    cases he with
    | self => exact spelled_ofMessage message
    | cause hc => exact nomatch hc
  | @addCause f cause _ _ ihf ihcause =>
    cases he with
    | self => exact (ihf (.self f)).addCause cause
    | cause hc he =>
      rcases List.mem_append.mp hc with hc | hc
      · exact ihf (.cause hc he)
      · rw [List.mem_singleton.mp hc] at he
        exact ihcause he

theorem foldl_addCause (f : Failure) (causes : List Failure) :
    causes.foldl addCause f =
      ⟨f.message,
        f.description ++ String.join (causes.map fun cause => causedBy ++ cause.description),
        f.causes ++ causes⟩ := by
  induction causes generalizing f with
  | nil =>
    cases f
    simp
  | cons cause causes ih =>
    rw [List.foldl_cons, ih]
    simp [addCause, String.append_assoc]

/-- A failure that is spelled out is its message with its causes added one after the other. -/
theorem Spelled.eq_foldl (h : f.Spelled) :
    f = f.causes.foldl Failure.addCause (ofMessage f.message) := by
  rw [foldl_addCause]
  obtain ⟨message, description, causes⟩ := f
  exact congrArg (Failure.mk message · causes) h

theorem Built.foldl {causes : List Failure} (h : Built f) (hc : ∀ cause ∈ causes, Built cause) :
    Built (causes.foldl Failure.addCause f) := by
  induction causes generalizing f with
  | nil => exact h
  | cons cause causes ih =>
    obtain ⟨hfirst, hrest⟩ := List.forall_mem_cons.mp hc
    exact ih (h.addCause hfirst) hrest

/-- **What is spelled out everywhere can be built**, from its innermost entries outward. -/
theorem built_of_spelled (f : Failure) (h : ∀ entry, f.HasEntry entry → entry.Spelled) :
    Built f := by
  rw [(h f (.self f)).eq_foldl]
  refine (Built.ofMessage f.message).foldl ?_
  intro cause hc
  exact built_of_spelled cause fun entry he => h entry (.cause hc he)
termination_by sizeOf f
decreasing_by
  have hlt : sizeOf cause < sizeOf f.causes := List.sizeOf_lt_of_mem hc
  have hle : sizeOf f.causes < sizeOf f := by
    cases f
    simp only [Failure.mk.sizeOf_spec]
    omega
  omega

theorem built_ofMessages (message : String) (causes : List String) :
    Built (ofMessages message causes) := by
  induction causes generalizing message with
  | nil => exact .ofMessage message
  | cons cause causes ih =>
    rw [ofMessages_cons]
    exact (Built.ofMessage message).addCause (ih cause)

/-! ## 4. Texts -/

/-- **What failures say.**

The failure of an error has the messages of the error, and its innermost is the root cause; the
text of the entry at each depth joins the messages from that depth inward; and it is the failure
that is built from these messages, starting with the innermost.  The failures that can be built
from messages are exactly those in which the text of every entry is its message, followed by the
text of each of its causes in order. -/
theorem ofError_texts (e : ErrorChain) :
    (ofError e).messages = e.messages ∧
      (ofError e).rootCause = e.messages.getLast e.messages_ne_nil ∧
      (∀ depth entry, (ofError e).chain[depth]? = some entry →
        entry.description = "\nCaused by: ".intercalate (e.messages.drop depth)) ∧
      ofError e = insideOut e ∧ Built (ofError e) ∧
      ∀ f, Built f ↔ ∀ entry, f.HasEntry entry →
        entry.description = entry.message ++
          String.join (entry.causes.map fun cause => "\nCaused by: " ++ cause.description) := by
  refine ⟨messages_ofError e, rootCause_ofError e, ?_, ofError_eq_insideOut e,
    built_ofMessages e.message e.causes, ?_⟩
  · intro depth entry h
    exact description_of_getElem?_chain h
  · intro f
    constructor
    · intro h entry he
      exact h.spelled he
    · intro h
      exact built_of_spelled f h

namespace Unread

/-- An error with two causes, one below the other. -/
def error : ErrorChain := ⟨"compilation failed", ["could not read sources", "missing file"]⟩

/-- Its second entry. -/
def second : Failure := ofMessages "could not read sources" ["missing file"]

/-- A failure with two causes side by side. -/
def both : Failure :=
  ((ofMessage "build failed").addCause (ofError error)).addCause (ofMessage "tests failed")

theorem built_both : Built both :=
  ((Built.ofMessage _).addCause (built_ofMessages _ _)).addCause (.ofMessage _)

end Unread

/-- The second entry of an error, and the text of a failure that has the error among its causes. -/
theorem texts_unread :
    (ofError Unread.error).chain[1]? = some Unread.second ∧
      Unread.second.description = "could not read sources\nCaused by: missing file" ∧
      Built Unread.both ∧ Unread.both.HasEntry Unread.both ∧
      Unread.both.description = "build failed" ++ String.join
        ["\nCaused by: compilation failed\nCaused by: could not read sources\nCaused by: missing file",
          "\nCaused by: tests failed"] := by
  obtain ⟨-, -, hchain, -, -, hbuilt⟩ := ofError_texts Unread.error
  have hsecond : (ofError Unread.error).chain[1]? = some Unread.second := by
    simp [Unread.error, Unread.second, ofError, ofMessages, chain, chainOfFirst]
  have hself : Unread.both.HasEntry Unread.both := .self _
  refine ⟨hsecond, ?_, Unread.built_both, hself, ?_⟩
  · rw [hchain 1 Unread.second hsecond]
    decide
  · rw [(hbuilt Unread.both).mp Unread.built_both Unread.both hself]
    decide

end Failure

end BuildStream
