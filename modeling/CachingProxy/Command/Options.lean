import CachingProxy.Text.Ascii

/-!
# The command line

A command line is read from left to right.  The first thing that cannot be read makes all of it
wrong, and asking for help or the version ends it at once.  No option may be given twice.
-/

set_option autoImplicit false

namespace CachingProxy.Command

structure Options where
  config : Option String := none
  port : Option UInt16 := none
  debug : Bool := false
  logLevel : Option String := none
  deriving DecidableEq

inductive Wish where
  | run (options : Options)
  | help
  | version
  deriving DecidableEq

inductive Valued where
  | config
  | port
  | logLevel
  deriving DecidableEq

namespace Options

def port? (text : String) : Option UInt16 :=
  let (negative, digits) := match text.toList with
    | '+' :: digits => (false, digits)
    | '-' :: digits => (true, digits)
    | digits => (false, digits)
  let n := Text.decimal digits
  if digits.isEmpty || !digits.all Text.isDigit || 65535 < n || (negative && n != 0) then none
  else some (UInt16.ofNat n)

def give (options : Options) (option : Valued) (value : String) : Option Options :=
  match option with
  | .config =>
      if options.config.isSome || value.isEmpty then none
      else some { options with config := some value }
  | .port =>
      if options.port.isSome then none
      else (port? value).map fun port => { options with port := some port }
  | .logLevel =>
      if options.logLevel.isSome then none else some { options with logLevel := some value }

def longValued? (name : List Char) : Option Valued :=
  if name = "config".toList then some .config
  else if name = "port".toList then some .port
  else if name = "log-level".toList then some .logLevel
  else none

def shortValued? (c : Char) : Option Valued :=
  if c = 'c' then some .config else if c = 'p' then some .port else none

/-- A lone hyphen is a value; every other argument with a hyphen in front starts something new. -/
def isValue (argument : String) : Bool :=
  match argument.toList with
  | '-' :: _ :: _ => false
  | _ => true

/-- What one argument comes to. -/
inductive Effect where
  | sets (options : Options)
  | wants (option : Valued)
  | asks (wish : Wish)
  | wrong

def Effect.ofOption : Option Options → Effect
  | some options => .sets options
  | none => .wrong

def long (options : Options) (name : List Char) (attached : Option String) : Effect :=
  match longValued? name, attached with
  | some option, some value => .ofOption (options.give option value)
  | some option, none => .wants option
  | none, some _ => .wrong
  | none, none =>
      if name = "help".toList then .asks .help
      else if name = "version".toList then .asks .version
      else if name = "debug".toList && !options.debug then .sets { options with debug := true }
      else .wrong

def short (options : Options) (letter : Char) (attached : List Char) : Effect :=
  match shortValued? letter, attached with
  | some option, [] => .wants option
  | some option, '=' :: value => .ofOption (options.give option (String.ofList value))
  | some option, value => .ofOption (options.give option (String.ofList value))
  | none, _ =>
      if letter = 'h' then .asks .help else if letter = 'V' then .asks .version else .wrong

def effect (options : Options) (argument : String) : Effect :=
  match argument.toList with
  | '-' :: '-' :: cs =>
      let (name, rest) := Text.cutAt (fun c => c == '=') cs
      match rest with
      | _ :: value => options.long name (some (String.ofList value))
      | [] => options.long name none
  | '-' :: letter :: attached => options.short letter attached
  | _ => .wrong

/-- Reads the arguments behind those that gave the options.  Two hyphens end the options, and
nothing else may follow. -/
def readFrom (options : Options) : List String → Option Wish
  | [] => some (.run options)
  | argument :: rest =>
      if argument = "--" then if rest.isEmpty then some (.run options) else none
      else
        match options.effect argument with
        | .wrong => none
        | .asks wish => some wish
        | .sets options => readFrom options rest
        | .wants option =>
            match rest with
            | [] => none
            | value :: rest =>
                if isValue value then
                  match options.give option value with
                  | some options => readFrom options rest
                  | none => none
                else none

def read (arguments : List String) : Option Wish := readFrom {} arguments

end Options

end CachingProxy.Command
