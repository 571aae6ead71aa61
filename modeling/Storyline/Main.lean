import Storyline.Shell.Check
import Storyline.Shell.Play

/-! # Command line

The first argument names the program, `player` or `project_linter`; the others are its own.
-/
namespace Storyline.Shell

def readFile (path : String) : IO File := do
  try
    return .text (← IO.FS.readFile path)
  catch
    | .noFileOrDirectory .. | .inappropriateType .. => return .missing
    | _ => return .unreadable

def entropy : IO UInt64 := do
  return (← IO.getRandomBytes 8).foldl (fun word byte => word * 256 + byte.toUInt64) 0

def finish (outcome : Outcome) : IO UInt32 := do
  IO.print outcome.output
  IO.eprint outcome.errors
  return outcome.exit

partial def Player.listen (p : Player) : IO Unit := do
  IO.print p.prompt
  (← IO.getStdout).flush
  let line ← (← IO.getStdin).getLine
  unless line.isEmpty do
    let order := Order.read line.toList
    let (p, shown) := p.respond order
    IO.print shown
    unless order = .quit do p.listen

def play (arguments : List String) : IO UInt32 := do
  let content ← match arguments with
    | path :: _ => readFile path
    | [] => pure .missing
  let fresh ← entropy
  match Player.launch (fun _ => content) (fun seed => .ofSeed (seed.getD fresh)) arguments with
  | .error outcome => finish outcome
  | .ok p =>
    IO.print p.greeting
    p.listen
    return 0

def inspect (arguments : List String) : IO UInt32 := do
  let content ← match arguments with
    | path :: _ => readFile path
    | [] => pure .missing
  finish (check (fun _ => content) (.ofSeed 0) arguments)

end Storyline.Shell

open Storyline.Shell in
def main : List String → IO UInt32
  | "player" :: arguments => play arguments
  | "project_linter" :: arguments => inspect arguments
  | _ => finish ⟨1, playUsage ++ "\n" ++ checkUsage, ""⟩
