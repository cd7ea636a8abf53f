import TpmRelay.CommandLine.Arguments

set_option autoImplicit false

namespace TpmRelay.CommandLine

inductive Word where
  | separator
  | long (name : String) (value : Option String)
  | short (letter : Char)
  | plain
  deriving DecidableEq, Repr

def Word.ofText (text : String) : Word :=
  match text.toList with
  | ['-', '-'] => .separator
  | '-' :: '-' :: rest =>
    let name := String.ofList (rest.takeWhile (· ≠ '='))
    match rest.dropWhile (· ≠ '=') with
    | [] => .long name none
    | _ :: value => .long name (some (String.ofList value))
  | '-' :: letter :: _ => .short letter
  | _ => .plain

structure Progress where
  draft : Draft := {}
  -- The parameter read last, and its value if that was a word of its own.
  pending : Option (Parameter × Option String) := none
  deriving DecidableEq, Repr

namespace Progress

def settle (progress : Progress) : Except UsageError Draft :=
  match progress.pending with
  | none => .ok progress.draft
  | some (parameter, none) => .error (.valueMissing parameter)
  | some (parameter, some value) => progress.draft.assign parameter value

def awaited (progress : Progress) : Option Parameter :=
  match progress.pending with
  | some (parameter, none) => some parameter
  | _ => none

def takesAnyWord (progress : Progress) : Bool :=
  progress.awaited.any (·.takesAnyWord)

def fill (progress : Progress) (word : String) : Progress :=
  { progress with pending := progress.pending.map fun (parameter, _) => (parameter, some word) }

def display (progress : Progress) (switch : Switch) : Except UsageError Progress := do
  let _ ← progress.settle
  throw (.shown switch)

def readLong (progress : Progress) (word name : String) (value : Option String) :
    Except UsageError Progress :=
  match Parameter.named? name, Switch.named? name, value with
  | some parameter, _, some value => do
    return { draft := ← (← progress.settle).assign parameter value }
  | some parameter, _, none => do
    return { draft := ← progress.settle, pending := some (parameter, none) }
  | none, some switch, none => progress.display switch
  -- What is wrong with a word itself is told before what is wrong with the value before it.
  | none, some switch, some _ => throw (.valueUnexpected switch)
  | none, none, _ => throw (.unknownWord word)

def readWord (progress : Progress) (word : String) : Except UsageError Progress :=
  if progress.takesAnyWord then .ok (progress.fill word)
  else match Word.ofText word with
    | .long name value => progress.readLong word name value
    | .short letter =>
      match Switch.lettered? letter with
      | some switch => progress.display switch
      | none => throw (.unknownWord word)
    | .plain | .separator =>
      if progress.awaited.isSome then .ok (progress.fill word) else throw (.unknownWord word)

-- After a separator no word is a parameter, and there are no others.
def readWords (progress : Progress) : List String → Except UsageError Draft
  | [] => progress.settle
  | word :: words =>
    if Word.ofText word = .separator ∧ !progress.takesAnyWord then
      match words with
      | [] => progress.settle
      | next :: _ => throw (.unknownWord next)
    else do
      let progress ← progress.readWord word
      progress.readWords words

end Progress

def read (words : List String) : Except UsageError Arguments := do
  (← ({} : Progress).readWords words).complete

end TpmRelay.CommandLine
