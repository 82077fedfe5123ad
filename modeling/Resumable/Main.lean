import Resumable.CommandLine.Duration
import Resumable.CommandLine.Session
import Resumable.Json.Standard

/-! The program itself: a command line on the file system. -/

namespace Resumable.CommandLine

def readFile (path : String) : IO (Option String) := do
  try
    return some (← IO.FS.readFile path)
  catch _ => return none

/-- Nothing can be read from a directory. -/
def isFile (path : String) : IO Bool := do
  try
    IO.FS.withFile path .read fun handle => do
      let _ ← handle.read 1
      return true
  catch _ => return false

def timed {α : Type} (compute : Unit → α) : IO (α × String) := do
  let start ← IO.monoNanosNow
  let result ← IO.lazyPure compute
  return (result, duration ((← IO.monoNanosNow) - start))

def fileSystem (directory : String) : Host IO :=
  { isFile, read := readFile, directory, timed, texts := .standard }

/-- Prints what there is to be printed, and answers the exit code: 101 if the program was stopped. -/
def printAll (printed : Printed) : IO UInt32 := do
  for line in printed.lines do
    IO.println line
  match printed.stopped with
  | none => return 0
  | some unfinished =>
    IO.print unfinished
    return 101

end Resumable.CommandLine

def main (arguments : List String) : IO UInt32 := do
  let directory ← IO.currentDir
  let host := Resumable.CommandLine.fileSystem directory.toString
  Resumable.CommandLine.printAll (← Resumable.CommandLine.run host arguments)
