import RemoteIndex.Disk

/-!
# The command

Surveys the disk, runs the program and prints what it leaves behind.
-/

open RemoteIndex

/-- The present reading of the clock. -/
def RemoteIndex.Instant.read : IO Instant := do
  let now ← IO.monoNanosNow
  return ⟨Int.ofNat (now / 1000000000), now % 1000000000⟩

/-- The clock is read when the command starts and when the survey is done, which is what takes
time. -/
def main (args : List String) : IO UInt32 := do
  let args : List Argument := args.map .ofString
  let begun ← Instant.read
  let cwd := Disk.placeOf (.ofString (← IO.FS.realPath ".").toString)
  let tree ← Disk.survey cwd args
  let ended ← Instant.read
  let clock (reading : Nat) : Instant := if reading = 0 then begun else ended
  let outcome := Program.run ⟨tree, cwd, clock, .inOrder⟩ args
  IO.print outcome.stdout
  IO.eprint outcome.stderr
  return outcome.exitCode.toUInt32
