import KoreanScript.Session

/-!
The dialogue with a user: a prompt, a line, what the line writes and gives, and
the prompt again. Lines are bytes up to and with a line feed, the last possibly
without one; the dialogue ends with the input, or at a line that is not UTF-8.
It is one loop for every console: that of a process, and a script in which all
lines stand already.
-/
namespace KoreanScript.Repl

def prompt : String := ">> "
/-- Some lines of output, each with its line feed. -/
def lines (ls : List String) : String := String.join (ls.map (· ++ "\n"))
/-- What a text shows behind the lines that it writes: its error, or its value unless that
    has no text or is not wanted. -/
def shown (quiet : Bool) : Except Error Value → List String
  | .ok v => if quiet || v.render.isEmpty then [] else [v.render]
  | .error e => [e.chain]
/-- All that running a text shows. -/
def response (quiet : Bool) (x : Execution) : String := lines (x.output ++ shown quiet x.result)

/-- How the dialogue goes on after a line. -/
inductive Step where
  | next (text : String) (session : Session)
  /-- The line is not UTF-8. -/
  | unreadable
  | tooDeep

/-- Runs one line. -/
def step (depth : Nat) (quiet : Bool) (s : Session) (line : List UInt8) : Step :=
  match String.fromUTF8? ⟨line.toArray⟩ with
  | none => .unreadable
  | some source =>
    match s.execute depth source with
    | none => .tooDeep
    | some x => .next (response quiet x) x.session

/-- How the dialogue ends. -/
inductive Ending where
  | finished | unreadable | tooDeep
deriving DecidableEq, Inhabited

/-- What a dialogue is held on. -/
structure Console (m : Type → Type) where
  /-- The next line with its line feed; nothing at the end of the input. -/
  readLine : m (List UInt8)
  say : String → m Unit

section
variable {m : Type → Type} [Monad m] (console : Console m) (depth : Nat) (quiet : Bool)

/-- Prompts for a line and answers it. The session goes on, or the dialogue ends. -/
def round (s : Session) : m (Session ⊕ Ending) := do
  console.say prompt
  let line ← console.readLine
  if line.isEmpty then return .inr .finished
  match step depth quiet s line with
  | .next text t =>
    console.say text
    return .inl t
  | .unreadable => return .inr .unreadable
  | .tooDeep => return .inr .tooDeep
/-- The whole dialogue. -/
def dialogue (s : Session) : m Ending := repeatM (round console depth quiet) s

end

/-- The lines of an input. -/
def split : List UInt8 → List (List UInt8)
  | [] => []
  | b :: bs =>
    if b = 0x0A then [b] :: split bs
    else
      match split bs with
      | [] => [[b]]
      | line :: rest => (b :: line) :: rest

/-- The lines that are still to be read and all that has been shown. -/
structure Script where
  unread : List (List UInt8)
  shown : String
deriving Inhabited

/-- The console of a script. -/
def scripted : Console (StateM Script) where
  readLine := modifyGet fun script =>
    match script.unread with
    | [] => ([], script)
    | line :: rest => (line, { script with unread := rest })
  say text := modify fun script => { script with shown := script.shown ++ text }

end KoreanScript.Repl
