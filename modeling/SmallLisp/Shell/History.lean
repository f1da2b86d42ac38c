/-!
# The history of inputs

The inputs of earlier runs are kept in a file. Its first line names the format, and
each further line is an entry, in which a line feed and a backslash are written with
a backslash in front. A file without the format's name has one entry per line, as it
stands. An empty entry, and one that equals the entry before it, is not kept, and of
more than a hundred entries the oldest are given up. The file is written only by a
run that has added an entry.

* `SmallLisp.History.escape`, `SmallLisp.History.unescape?` – the text of an entry;
* `SmallLisp.History.load`, `SmallLisp.History.save?` – **the file**.
-/

namespace SmallLisp

/-- **A history**: the entries, the latest first, and whether this run has added
one. -/
structure History where
  /-- The entries, the latest first. -/
  entries : List String
  /-- Whether an entry has been added since the file was loaded. -/
  changed : Bool

namespace History

/-- The history of a first run. -/
def empty : History := ⟨[], false⟩

/-- How many entries are kept. -/
def limit : Nat := 100

/-- The entries with one more; an empty one and a repetition of the latest are left
out. -/
def insert (entry : String) (entries : List String) : List String :=
  if entry = "" ∨ entries.head? = some entry then entries else (entry :: entries).take limit

/-- The history with an entry of this run. -/
def add (h : History) (entry : String) : History :=
  if entry = "" ∨ h.entries.head? = some entry then h else ⟨insert entry h.entries, true⟩

/-! ### The text of an entry -/

/-- An entry on one line. -/
def escape : List Char → List Char
  | [] => []
  | '\\' :: cs => '\\' :: '\\' :: escape cs
  | '\n' :: cs => '\\' :: 'n' :: escape cs
  | c :: cs => c :: escape cs

/-- The entry on a line, unless a backslash stands in front of something else. -/
def unescape? : List Char → Option (List Char)
  | [] => some []
  | '\\' :: '\\' :: cs => (unescape? cs).map ('\\' :: ·)
  | '\\' :: 'n' :: cs => (unescape? cs).map ('\n' :: ·)
  | '\\' :: _ => none
  | c :: cs => (unescape? cs).map (c :: ·)

/-- Every entry can be read back from its line. -/
theorem unescape?_escape (cs : List Char) : unescape? (escape cs) = some cs := by
  fun_induction escape cs with
  | case1 => rfl
  | case2 cs ih => simp [unescape?, ih]
  | case3 cs ih => simp [unescape?, ih]
  | case4 c cs h1 h2 ih =>
    rw [unescape?]
    · simp [ih]
    · exact fun _ h _ => h1 h
    · exact fun _ h _ => h1 h
    · exact fun h => h1 h

/-- An entry takes one line. -/
theorem newline_not_mem_escape (cs : List Char) : '\n' ∉ escape cs := by
  fun_induction escape cs with
  | case1 => simp
  | case2 cs ih => simpa using ih
  | case3 cs ih => simpa using ih
  | case4 c cs h1 h2 ih => simpa [ih] using fun h => h2 h.symm

/-! ### The file -/

/-- The first line of a file in this format. -/
def header : String := "#V2"

/-- A line without the carriage return at its end. -/
def dropReturn (line : List Char) : List Char :=
  if line.getLast? = some '\r' then line.dropLast else line

/-- The lines of a file, without their ends; `line` holds the characters of the
current line, the latest first. A carriage return belongs to the end of a line only
in front of a line feed. -/
def fileLines (line : List Char) : List Char → List (List Char)
  | [] => if line = [] then [] else [line.reverse]
  | '\n' :: cs => dropReturn line.reverse :: fileLines [] cs
  | c :: cs => fileLines (c :: line) cs

/-- The entry on a line of a file in this format. A line with a backslash in front
of something else is taken as it stands. -/
def entryOfLine (line : List Char) : String :=
  String.ofList ((unescape? line).getD line)

/-- Adds entries to a history, the oldest first. -/
def insertAll (entries : List String) (texts : List String) : List String :=
  texts.foldl (fun acc text => insert text acc) entries

/-- **The history of a file.** -/
def load (file : String) : History :=
  match fileLines [] file.toList with
  | [] => empty
  | line :: lines =>
    if String.ofList line = header then ⟨insertAll [] (lines.map entryOfLine), false⟩
    else ⟨insertAll [] ((line :: lines).map String.ofList), false⟩

/-- **The file of a history**, if it has to be written. -/
def save? (h : History) : Option String :=
  if h.changed then
    some (h.entries.reverse.foldl
      (fun acc entry => acc ++ String.ofList (escape entry.toList) ++ "\n") (header ++ "\n"))
  else none

end History

end SmallLisp
