import LSystem.Command.Answer
import LSystem.Command.Arguments
set_option autoImplicit false

/-! # The program

The program reads its settings, opens its log, reads its arguments, loads the definitions and answers
the command, in this order, and stops at the first thing that goes wrong. What it needs from the place
that it runs on is gathered in a `Host`, so that one program runs on a real directory and on a model of
one. In what format definitions are kept is left open as well: the program is given a reader for them,
and takes whatever definitions that makes of a text. -/

namespace LSystem

/-- What a log can be opened to. -/
inductive LogOpening where
  | opened
  /-- There is no folder for it and none can be made. -/
  | noFolder
  /-- What should be its folder holds no files. -/
  | noFile

/-- The name of the log of a day, which is written as year, month and day with dashes between. -/
def logName (day : String) : String := "lsystem_walker.log." ++ day

/-- What can be read from a path. -/
inductive Content where
  | missing
  | unreadable
  | text (content : String)

/-- What the program needs from the place that it runs on. -/
structure Host (m : Type → Type) where
  /-- The text of the nearest environment file. -/
  environmentFile : m (Option String)
  /-- Open the log in a folder. -/
  openLog : Path → m LogOpening
  /-- Read a file. -/
  read : Path → m Content
  /-- Write a file with the folders on the way to it; says whether that went well. -/
  write : Path → String → m Bool
  /-- The current time. -/
  stamp : m String

/-- How the program ends. -/
inductive Outcome where
  /-- With a text to print. -/
  | finished (output : String)
  /-- Without an answer. -/
  | failed (failure : Failure)
  /-- At an environment file whose assignments no process can hold. -/
  | unset
  /-- At a file or folder that could not be used. -/
  | blocked
  /-- At a log that could not be written. -/
  | unlogged
  /-- At arguments that are no invocation. -/
  | misused (misuse : Misuse)

namespace Outcome

/-- The exit status. -/
def status : Outcome → UInt32
  | finished _ => 0
  | failed _ => 1
  | unset => 101
  | blocked => 1
  | unlogged => 101
  | misused .helpWanted => 0
  | misused _ => 2

/-- What is printed. -/
def output : Outcome → String
  | finished text => text
  | misused .helpWanted => Misuse.helpWanted.message
  | _ => ""

end Outcome

/-- What makes definitions of a text, if they can be made of it. -/
abbrev LibraryReader := String → Option Library

namespace Program

/-- The definitions that a file holds. A file that is not there holds none. -/
def library? (reader : LibraryReader) : Content → Option Library
  | .missing => some []
  | .unreadable => none
  | .text content => reader content

variable {m : Type → Type} [Monad m]

/-- Carry out an answer. -/
def finish (host : Host m) (a : Answer) : m Outcome :=
  match a.document with
  | none => return .finished a.output
  | some (path, document) => do
    if ← host.write path document.text then return .finished a.output
    else return .blocked

/-- Answer an invocation. -/
def perform (host : Host m) (reader : LibraryReader) (settings : Settings) (call : Invocation) :
    m Outcome := do
  match library? reader (← host.read call.library) with
  | none => return .blocked
  | some library =>
    match call.command.answer settings library (← host.stamp) with
    | .error e => return .failed e
    | .ok a => finish host a

/-- Run the program with the variables and arguments of its process. -/
def run (host : Host m) (reader : LibraryReader) (vars : Variables) (arguments : List String) :
    m Outcome := do
  let file ← host.environmentFile
  if !(Settings.environment vars file).areHoldable then return .unset
  let settings := Settings.load vars file
  match ← host.openLog settings.logDirectory with
  | .noFolder => return .blocked
  | .noFile => return .unlogged
  | .opened =>
    match Invocation.ofArguments arguments with
    | .error misuse => return .misused misuse
    | .ok call => perform host reader settings call

end Program

end LSystem
