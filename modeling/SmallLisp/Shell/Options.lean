/-!
# The command line

The shell is told on its command line whether to evaluate a single line instead of
reading inputs, and where its history is kept.
-/

namespace SmallLisp

/-- **What the command line asks for.** -/
structure Options where
  /-- The line to evaluate, if there is one. -/
  line : Option String
  /-- The file that the history is kept in, unless there is to be none. -/
  history : Option String

namespace Options

/-- Where the history is kept if nothing is said about it. -/
def historyFile : String := "tinylisp_history.txt"

/-- What an empty command line asks for. -/
def standard : Options := ⟨none, some historyFile⟩

/-- The value of an argument that names an option and its value at once, with an
equals sign between them. -/
def valueOf? (option : String) (arg : String) : Option String :=
  let head := (option ++ "=").toList
  if head.isPrefixOf arg.toList then some (String.ofList (arg.toList.drop head.length)) else none

/-- The options that arguments ask for beyond the given ones, or the first argument
that is none. The choice of key bindings is accepted; it matters only to an editor
of lines. -/
def ofArgsFrom (o : Options) : List String → Except String Options
  | [] => .ok o
  | "--emacs" :: args => ofArgsFrom o args
  | "--no-history" :: args => ofArgsFrom { o with history := none } args
  | "--history" :: file :: args => ofArgsFrom { o with history := some file } args
  | "--eval" :: line :: args => ofArgsFrom { o with line := some line } args
  | "-e" :: line :: args => ofArgsFrom { o with line := some line } args
  | arg :: args =>
    match valueOf? "--eval" arg, valueOf? "--history" arg with
    | some line, _ => ofArgsFrom { o with line := some line } args
    | none, some file => ofArgsFrom { o with history := some file } args
    | none, none => .error arg

/-- **The options that a command line asks for**, or the first argument that is
none. -/
def ofArgs (args : List String) : Except String Options := ofArgsFrom standard args

end Options

end SmallLisp
