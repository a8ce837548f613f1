/-
# Completions

What a shell is told so that it can complete command lines: the words that may follow the program
and each of its commands.  Behind `run` these include the targets of the workspace, every declared
path and every name of a task.

A shell takes words apart at white space, so a target that holds some is offered in pieces.
-/
import BuildStream.CommandLine.Reader
import BuildStream.Config
import BuildStream.Distinct
import BuildStream.Text.Blank

namespace BuildStream

/-- What is written for a shell. -/
structure Completion where
  shell : Shell
  /-- The targets offered behind `run`. -/
  targets : List String
deriving DecidableEq, Repr

namespace Completion

/-! ## 1. Words -/

/-- The paths and names that may be run, sorted, each once. -/
def targetsOf (w : Workspace) : List String :=
  let paths := w.tasks.map (·.path)
  let names := (paths.map TaskPath.lastSegment).filter (!·.isEmpty)
  (distinct (paths ++ names)).mergeSort fun a b => a ≤ b

/-- The completions of a workspace for a shell. -/
def ofWorkspace (shell : Shell) (w : Workspace) : Completion := ⟨shell, targetsOf w⟩

/-- The words of a text, between its white space. -/
def wordsOf (text : String) : List String :=
  let step (c : Char) (words : List (List Char)) : List (List Char) :=
    if isWhiteSpace c then [] :: words
    else
      match words with
      | [] => [[c]]
      | w :: ws => (c :: w) :: ws
  (((text.toList.foldr step [[]]).filter (!·.isEmpty)).map String.ofList)

/-- The targets as a shell offers them. -/
def offeredTargets (c : Completion) : List String := c.targets.flatMap wordsOf

/-- The options of a level, as they are written. -/
def optionWords (l : CommandLine.Level) : List String := l.options.map ("--" ++ ·.name)

/-- The words offered behind each command. -/
def offers (c : Completion) : List (String × List String) :=
  let more : List (String × List String) :=
    [("run", c.offeredTargets), ("completions", Shell.byName.map (·.1))]
  CommandLine.commands.map fun command =>
    (command.name, optionWords command.level ++ (more.lookup command.name).getD [])

/-- The words offered where no command stands yet. -/
def firstOffers : List String :=
  optionWords CommandLine.topLevel ++ CommandLine.topLevel.commands

/-! ## 2. Scripts -/

/-- The lines of a choice by command, each made of a command and its words. -/
def cases (c : Completion) (line : String → List String → String) : List String :=
  c.offers.map fun o => line o.1 o.2

/-- Words one after the other. -/
def spaced (words : List String) : String := " ".intercalate words

/-- Words between quotes. -/
def quotedWords (separator : String) (words : List String) : String :=
  separator.intercalate (words.map fun w => "'" ++ w ++ "'")

/-- The script of a shell for a program. -/
def script (program : String) (c : Completion) : List String :=
  match c.shell with
  | .bash =>
    ["_" ++ program ++ "() \x7b", "    local words", "    case \"$\x7bCOMP_WORDS[1]\x7d\" in"] ++
      c.cases (fun name words => "        " ++ name ++ ") words=\"" ++ spaced words ++ "\" ;;") ++
      ["        *) words=\"" ++ spaced firstOffers ++ "\" ;;", "    esac",
        "    COMPREPLY=($(compgen -W \"$words\" -- \"$\x7bCOMP_WORDS[COMP_CWORD]\x7d\"))", "\x7d",
        "complete -F _" ++ program ++ " " ++ program]
  | .zsh =>
    ["#compdef " ++ program, "case \"$words[2]\" in"] ++
      c.cases (fun name words => "    " ++ name ++ ") compadd -- " ++ spaced words ++ " ;;") ++
      ["    *) compadd -- " ++ spaced firstOffers ++ " ;;", "esac"]
  | .fish =>
    c.cases (fun name words =>
        "complete -c " ++ program ++ " -n '__fish_seen_subcommand_from " ++ name ++ "' -a \"" ++
          spaced words ++ "\"") ++
      ["complete -c " ++ program ++ " -n __fish_use_subcommand -a \"" ++ spaced firstOffers ++ "\""]
  | .elvish =>
    ["var offers = ["] ++
      c.cases (fun name words => "    &" ++ name ++ "=[" ++ quotedWords " " words ++ "]") ++
      ["]", "set edit:completion:arg-completer[" ++ program ++ "] = \x7b|@words|",
        "    if (has-key $offers $words[1]) \x7b all $offers[$words[1]] \x7d else \x7b all [" ++
          quotedWords " " firstOffers ++ "] \x7d", "\x7d"]
  | .powershell =>
    ["$offers = @\x7b"] ++
      c.cases (fun name words => "    '" ++ name ++ "' = @(" ++ quotedWords ", " words ++ ")") ++
      ["\x7d", "Register-ArgumentCompleter -Native -CommandName " ++ program ++
          " -ScriptBlock \x7b", "    param($word, $line)",
        "    $words = $offers[\"$($line.CommandElements[1])\"]",
        "    if (-not $words) \x7b $words = @(" ++ quotedWords ", " firstOffers ++ ") \x7d",
        "    $words | Where-Object \x7b $_ -like \"$word*\" \x7d", "\x7d"]

end Completion

end BuildStream
