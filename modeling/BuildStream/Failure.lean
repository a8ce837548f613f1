/-
# Failures

An error is a message and the errors that caused it.  Whoever hands it over may have made one that
cannot be shown, or may not have returned at all; those are faults and panics.

What is reported of an error is a tree of failures: each entry has its own message, the full text of
everything below it, and its direct causes.  Two ways of building such a tree are kept side by side:
from a chain of messages, and entry by entry with `addCause`.
-/
namespace BuildStream

/-! ## 1. Errors -/

/-- An error that can be shown: its message, and the messages of its causes, outermost first. -/
structure ErrorChain where
  message : String
  causes : List String
deriving DecidableEq, Repr

namespace ErrorChain

/-- An error without a cause. -/
def single (message : String) : ErrorChain := ⟨message, []⟩

/-- The messages, outermost first. -/
def messages (e : ErrorChain) : List String := e.message :: e.causes

/-- The error as the cause of a new message. -/
def context (e : ErrorChain) (message : String) : ErrorChain := ⟨message, e.messages⟩

/-- The chain on one line. -/
def line (e : ErrorChain) : String := ": ".intercalate e.messages

end ErrorChain

/-- An error as it is handed over.  One that cannot be rendered panics when its text is asked for. -/
inductive Fault where
  | error (chain : ErrorChain)
  | unrenderable
deriving DecidableEq, Repr

/-- What a panic carries: a text, or something that is not one. -/
inductive PanicPayload where
  | text (message : String)
  | other
deriving DecidableEq, Repr

namespace PanicPayload

/-- The words for a panic. -/
def message : PanicPayload → String
  | text m => m
  | other => "unknown panic"

end PanicPayload

/-! ## 2. Trees of failures -/

/-- What stands between a description and that of a cause. -/
def causedBy : String := "\nCaused by: "

/-- A failure and its causes. -/
structure Failure where
  message : String
  /-- The text of the entry and of everything below it. -/
  description : String
  causes : List Failure
deriving Repr, BEq, Inhabited

namespace Failure

/-- A failure without causes. -/
def ofMessage (message : String) : Failure := ⟨message, message, []⟩

/-- Adds a direct cause, whose description is taken as it stands. -/
def addCause (f : Failure) (cause : Failure) : Failure :=
  { f with
    description := f.description ++ causedBy ++ cause.description
    causes := f.causes ++ [cause] }

/-- A text with the messages of causes written below it, from the outermost inward. -/
def rendered (text : String) : List String → String
  | [] => text
  | cause :: causes => rendered (text ++ causedBy ++ cause) causes

/-- The failure of a chain of messages; the text of each entry is written anew. -/
def ofMessages (message : String) : List String → Failure
  | [] => ⟨message, rendered message [], []⟩
  | cause :: causes => ⟨message, rendered message (cause :: causes), [ofMessages cause causes]⟩

/-- The failure of an error. -/
def ofError (e : ErrorChain) : Failure := ofMessages e.message e.causes

mutual
/-- The entries from a failure inward along first causes. -/
def chain : Failure → List Failure
  | ⟨message, description, causes⟩ => ⟨message, description, causes⟩ :: chainOfFirst causes

/-- The entries from the first of some causes inward. -/
def chainOfFirst : List Failure → List Failure
  | [] => []
  | f :: _ => chain f
end

/-- The message of the innermost cause. -/
def rootCause (f : Failure) : String := (f.chain.map (·.message)).getLastD f.message

end Failure

end BuildStream
