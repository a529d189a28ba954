import LinkTrail.CommandLine.Run

/-! The program. It has no session of its own, so that every request ends in an error. -/

namespace LinkTrail.CommandLine

def noRoute (_url : String) : Reply := .troubled (.transport "no route")

def Report.print (report : Report) : IO UInt32 := do
  IO.print report.output
  IO.eprint report.errors
  return report.code.toUInt32

end LinkTrail.CommandLine

def main (words : List String) : IO UInt32 :=
  match LinkTrail.CommandLine.run LinkTrail.CommandLine.noRoute words with
  | some (.ok report) => report.print
  | some (.error failure) => do
      IO.eprintln failure.message
      return 1
  | none => do
      repeat IO.sleep 1000
      return 0
