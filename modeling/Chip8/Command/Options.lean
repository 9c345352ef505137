import Chip8.Files
import Chip8.Text.Basic

/-!
# Command line options

A tool declares its options with their names and whether they take a value. Options and arguments
may come in any order.

A long name starts with two dashes; its value follows behind an equals sign or as the next word. A
short name is one letter behind one dash; several of them may share the dash, and the value of the
last one may follow directly. After `--` there are only arguments, and a single dash is an
argument too. The word after an option that takes a value is that value, whatever it looks like.

The values of options stand for numbers or files, and the argument of a tool stands for a file. A
word that makes no sense where it stands makes the whole command line senseless. So does a missing
file; but a path that the system does not even look at is reported as such.
-/

namespace Chip8.Command

structure Opt (κ : Type) where
  key : κ
  names : List String
  takesValue : Bool

/-- What a command line gives: options with their values, and arguments, in order. An option that
takes no value has an empty one. -/
structure Given (κ : Type) where
  options : List (κ × String)
  arguments : List String
  deriving DecidableEq

variable {κ : Type}

namespace Given

def none : Given κ := ⟨[], []⟩

def addOptions (g : Given κ) (found : List (κ × String)) : Given κ :=
  { g with options := found ++ g.options }

def addArgument (g : Given κ) (argument : String) : Given κ :=
  { g with arguments := argument :: g.arguments }

/-- The last value of an option. -/
def value? [BEq κ] (g : Given κ) (key : κ) : Option String := g.options.reverse.lookup key

/-- Every given option once, where it was given first, with its last value. -/
def settings [BEq κ] (g : Given κ) : List (κ × String) :=
  (g.options.map Prod.fst).eraseDups.filterMap fun key => (g.value? key).map (key, ·)

end Given

def findOption? (opts : List (Opt κ)) (name : String) : Option (Opt κ) :=
  opts.find? fun o => o.names.contains name

inductive WordError
  | unknownOption
  | valueMissing (name : String)
  | valueUnwanted (name : String)
  deriving DecidableEq, Repr

structure WordOptions (κ : Type) where
  complete : List (κ × String)
  /-- The option whose value is the next word, with the name it was given by. -/
  waiting : Option (κ × String)

def readShort (opts : List (Opt κ)) : List Char → Except WordError (WordOptions κ)
  | [] => .ok ⟨[], none⟩
  | c :: rest =>
    let name := String.ofList ['-', c]
    match findOption? opts name with
    | none => .error .unknownOption
    | some o =>
      if !o.takesValue then
        (readShort opts rest).map fun w => { w with complete := (o.key, "") :: w.complete }
      else if rest.isEmpty then .ok ⟨[], some (o.key, name)⟩
      else .ok ⟨[(o.key, String.ofList rest)], none⟩

/-- The part of a word before its first equals sign, and the part behind it. -/
def splitValue (word : String) : String × Option String :=
  let cs := word.toList
  match cs.dropWhile (· != '=') with
  | [] => (word, none)
  | _ :: value => (String.ofList (cs.takeWhile (· != '=')), some (String.ofList value))

def readLong (opts : List (Opt κ)) (word : String) : Except WordError (WordOptions κ) :=
  let (name, value) := splitValue word
  match findOption? opts name, value with
  | none, _ => .error .unknownOption
  | some o, some v =>
    if o.takesValue then .ok ⟨[(o.key, v)], none⟩ else .error (.valueUnwanted name)
  | some o, none =>
    if o.takesValue then .ok ⟨[], some (o.key, name)⟩ else .ok ⟨[(o.key, "")], none⟩

def readOption (opts : List (Opt κ)) (word : String) : Except WordError (WordOptions κ) :=
  if word.startsWith "--" then readLong opts word else readShort opts (word.toList.drop 1)

/-- The options and arguments of a command line. The first word that makes no sense is reported. -/
def readWords (opts : List (Opt κ)) : List String → Except WordError (Given κ)
  | [] => .ok .none
  | word :: rest =>
    if word == "--" then .ok ⟨[], rest⟩
    else if word.startsWith "-" && word != "-" then
      match readOption opts word, rest with
      | .error e, _ => .error e
      | .ok ⟨complete, none⟩, rest => (readWords opts rest).map (·.addOptions complete)
      | .ok ⟨_, some (_, name)⟩, [] => .error (.valueMissing name)
      | .ok ⟨complete, some (key, _)⟩, value :: rest =>
        (readWords opts rest).map (·.addOptions (complete ++ [(key, value)]))
    else (readWords opts rest).map (·.addArgument word)

/-! ## Values -/

open Chip8.Text

inductive ReadError
  | senseless
  | badPath (e : FileError)
  deriving DecidableEq, Repr

def sensible {α : Type} : Option α → Except ReadError α
  | none => .error .senseless
  | some a => .ok a

def readInt (s : String) : Except ReadError Int := sensible (Base.ten.parse? s.toList)

/-- A number that is at least `least`. -/
def readNumber (least : Nat) (s : String) : Except ReadError Nat := do
  let n ← readInt s
  if n < least then throw .senseless
  return n.toNat

def readName {α : Type} (values : List α) (name : α → String) (s : String) :
    Except ReadError α :=
  sensible (values.find? fun a => name a == s)

/-- A path that may be written to: no directory stands there. -/
def readTarget (files : Files) (path : String) : Except ReadError String :=
  match files.look path with
  | .ok .directory => .error .senseless
  | .error .zeroInPath => .error (.badPath .zeroInPath)
  | _ => .ok (normalPath path)

/-- The only argument: the path of a file that is there, and the bytes of that file. -/
def readInput (files : Files) : List String → Except ReadError (String × List UInt8)
  | [] => .error .senseless
  | path :: others =>
    match files.look path with
    | .ok (.file bytes) =>
      if others.isEmpty then .ok (normalPath path, bytes) else .error .senseless
    | .error .zeroInPath => .error (.badPath .zeroInPath)
    | _ => .error .senseless

end Chip8.Command
