import StaticInit.Args.Problem
import StaticInit.Args.Word

/-!
# Items of a command line

What an argument is by its spelling and the tables of options and flags,
whatever stands before it (`Item.ofArgument`). Some arguments are refused for
that alone: an unknown name, a value attached to a flag, a text where no value
is due, and whatever follows the separator.

Such a refusal goes before a problem with the value of the option in front of
it (`outstanding`): that a value is missing, repeated or wrong is told only when
the next argument can be read, or there is none.
-/

namespace StaticInit.Args

inductive Item where
  | refused (p : Problem)
  /-- The separator at the end. -/
  | close
  | cluster (flags : List Char)
  | flag (f : Flag)
  /-- An option whose value is to follow. -/
  | awaiting (o : Opt)
  /-- An option with its value attached. -/
  | attached (o : Opt) (value : String)
deriving DecidableEq

/-- The item that an argument is before the arguments in `rest`. -/
def Item.ofArgument (argument : String) (rest : List String) : Item :=
  match Word.ofText argument with
  | .plain => .refused (.unexpected argument)
  | .separator =>
    match rest with
    | [] => .close
    | next :: _ => .refused (.unexpected next)
  | .cluster c cs =>
    if (Flag.ofShort? c).isSome then .cluster (c :: cs)
    else .refused (.unexpected (String.ofList ['-', c]))
  | .long name value? =>
    match Named.ofName? name, value? with
    | none, _ => .refused (.unexpected ("--" ++ name))
    | some (.flag f), none => .flag f
    | some (.flag f), some value => .refused (.unneededValue f value)
    | some (.opt o), none => .awaiting o
    | some (.opt o), some value => .attached o value

/-- The problem to tell of where a value has one and `rest` follows. -/
def outstanding (p : Problem) : List String → Problem
  | [] => p
  | argument :: rest =>
    match Item.ofArgument argument rest with
    | .refused q => q
    | _ => p

@[simp] theorem outstanding_nil (p : Problem) : outstanding p [] = p := rfl

end StaticInit.Args
