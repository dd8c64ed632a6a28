import StaticInit.CommandLine

/-!
# The program

Hands the arguments and the level of the log that the environment sets to
`CommandLine.run`, and prints what it returns.
-/

def main (arguments : List String) : IO UInt32 := do
  let level? ← IO.getEnv "RUST_LOG"
  let outcome := StaticInit.CommandLine.run level? arguments
  for line in outcome.stderr do
    IO.eprintln line
  IO.print outcome.stdout
  return outcome.exit.toUInt32
