import StaticInit.Config
import StaticInit.Numeral

/-!
# Options, flags and requests

The tables of the command line: its options, which take a value, its flags,
which take none, and for each value what it asks for (`Request`). The value of
an option is one of a few words, or an integer in a range (`Opt.form`).
-/

namespace StaticInit.Args

/-- The options with a value. -/
inductive Opt where
  | program
  | overrideMode
  | order
  | seed
  | input
  | warmup
deriving DecidableEq

inductive Flag where
  | report
  | verbose
  | help
deriving DecidableEq

/-- What a long name stands for. -/
inductive Named where
  | opt (o : Opt)
  | flag (f : Flag)
deriving DecidableEq

/-- One thing that the arguments ask for. -/
inductive Request where
  | program (p : Program)
  | overrideMode (m : Override)
  | order (o : Order)
  | seed (n : Int32)
  | input (n : Int32)
  | warmup (n : UInt32)
  | report
  | verbose
deriving DecidableEq

/-- The option or flag that a request is made with. -/
def Request.named : Request → Named
  | .program _ => .opt .program
  | .overrideMode _ => .opt .overrideMode
  | .order _ => .opt .order
  | .seed _ => .opt .seed
  | .input _ => .opt .input
  | .warmup _ => .opt .warmup
  | .report => .flag .report
  | .verbose => .flag .verbose

/-- The values of an option. -/
inductive Form where
  | words (choices : List (String × Request))
  | integer (least greatest : Int) (request : Int → Request)

namespace Opt

/-- All options, in the order of the help text. -/
def all : List Opt := [.program, .overrideMode, .order, .seed, .input, .warmup]

def name : Opt → String
  | .program => "program"
  | .overrideMode => "override-mode"
  | .order => "order"
  | .seed => "seed"
  | .input => "input"
  | .warmup => "warmup"

/-- The option with the placeholder of its value. -/
def shown : Opt → String
  | .program => "--program <PROGRAM>"
  | .overrideMode => "--override-mode <OVERRIDE_MODE>"
  | .order => "--order <ORDER>"
  | .seed => "--seed <SEED>"
  | .input => "--input <INPUT>"
  | .warmup => "--warmup <WARMUP>"

def form : Opt → Form
  | .program => .words [("sum", .program .sum), ("hello-world", .program .helloWorld)]
  | .overrideMode =>
    .words [("no-op", .overrideMode .noOp), ("chain-through", .overrideMode .chainThrough)]
  | .order =>
    .words [("counter-first", .order .counterFirst), ("sum-first", .order .sumFirst)]
  | .seed => .integer (-2147483648) 2147483647 fun n => .seed (Int32.ofInt n)
  | .input => .integer (-2147483648) 2147483647 fun n => .input (Int32.ofInt n)
  | .warmup => .integer 0 4294967295 fun n => .warmup (UInt32.ofNat n.toNat)

/-- Whether a negative number may follow as an argument of its own. -/
def acceptsNegative : Opt → Bool
  | .seed | .input => true
  | .program | .overrideMode | .order | .warmup => false

end Opt

namespace Flag

def all : List Flag := [.report, .verbose, .help]

def name : Flag → String
  | .report => "report"
  | .verbose => "verbose"
  | .help => "help"

/-- Dots mark the one flag that may be repeated. -/
def shown : Flag → String
  | .report => "--report"
  | .verbose => "--verbose..."
  | .help => "--help"

def short? : Flag → Option Char
  | .report => none
  | .verbose => some 'v'
  | .help => some 'h'

def ofShort? (c : Char) : Option Flag := all.find? fun f => f.short? = some c

end Flag

namespace Named

def all : List Named := Opt.all.map .opt ++ Flag.all.map .flag

def name : Named → String
  | .opt o => o.name
  | .flag f => f.name

def shown : Named → String
  | .opt o => o.shown
  | .flag f => f.shown

/-- Names are exact: no abbreviations, and case matters. -/
def ofName? (name : String) : Option Named := all.find? fun n => n.name = name

end Named

end StaticInit.Args
