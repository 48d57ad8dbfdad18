import MatrixLang.Analysis
import MatrixLang.Tree.Outline

/-! # The command line

The arguments are flags and the name of one file. The answer is what is printed, and a status: zero
for a clean program, one for problems or an unreadable file, two for a syntax error or wrong usage.
-/

namespace MatrixLang

structure Options where
  tokens : Bool
  tree : Bool
  verbosity : Nat
  deriving DecidableEq, Repr

structure Invocation where
  options : Options
  file : String
  deriving DecidableEq, Repr

inductive UsageError where
  | unknownFlag (flag : String)
  | repeatedFlag (flag : String)
  | secondFile (file : String)
  | missingFile
  deriving DecidableEq, Repr

namespace Options

def default : Options := ⟨false, false, 0⟩

/-- Takes one flag; only the short ones may be run together. -/
def addFlag (o : Options) (flag : String) : Except UsageError Options :=
  match flag with
  | "--tokens" => if o.tokens then .error (.repeatedFlag flag) else .ok { o with tokens := true }
  | "--tree" => if o.tree then .error (.repeatedFlag flag) else .ok { o with tree := true }
  | "--verbose" => .ok { o with verbosity := o.verbosity + 1 }
  | _ =>
    let letters := flag.toList.drop 1
    if letters.all (· == 'v') then .ok { o with verbosity := o.verbosity + letters.length }
    else .error (.unknownFlag flag)

end Options

namespace Invocation

/-- Flags start with a dash; a dash alone is the name of a file. -/
def isFlag (argument : String) : Bool :=
  argument.startsWith "-" && argument != "-"

/-- The flags and the files among the arguments; behind a double dash there are only files. -/
def split : List String → List String × List String
  | [] => ([], [])
  | argument :: arguments =>
    if argument = "--" then ([], arguments)
    else
      let (flags, files) := split arguments
      if isFlag argument then (argument :: flags, files) else (flags, argument :: files)

def ofArguments (arguments : List String) : Except UsageError Invocation := do
  let (flags, files) := split arguments
  let options ← flags.foldlM Options.addFlag .default
  match files with
  | [] => .error .missingFile
  | [file] => .ok ⟨options, file⟩
  | _ :: file :: _ => .error (.secondFile file)

end Invocation

/-- What a run of the program prints, and its status. -/
structure Report where
  output : String
  status : Nat
  deriving DecidableEq, Repr

namespace Report

def lines (ls : List String) : String :=
  String.join (ls.map (· ++ "\n"))

def statusOf (a : Analysis) : Nat :=
  match a.outcome with
  | .error _ => 2
  | .ok _ => if a.isClean then 0 else 1

/-- The report on a text: tokens if asked for, lexical errors, and then the syntax error, or the
outline if asked for and the diagnostics. -/
def ofText (o : Options) (cs : List Char) : Report :=
  let a := Analysis.ofText cs
  let tokens := if o.tokens then lines ((Scan.ofText cs).tokens.map (·.listing)) else ""
  let errors := lines (a.lexicalErrors.map (·.text))
  let body := match a.outcome with
    | .error e => lines [e.message]
    | .ok checked =>
      (if o.tree then checked.program.outlineText else "") ++
        lines (checked.findings.diagnostics.map (·.text))
  { output := tokens ++ errors ++ body, status := statusOf a }

/-- The report on a file of the given bytes, absent if it cannot be read. -/
def ofFile (o : Options) (contents : Option ByteArray) : Report :=
  match contents.bind String.fromUTF8? with
  | some s => ofText o s.toList
  | none => ⟨"", 1⟩

def ofArguments (arguments : List String) (contents : Option ByteArray) : Report :=
  match Invocation.ofArguments arguments with
  | .ok invocation => ofFile invocation.options contents
  | .error _ => ⟨"", 2⟩

end Report

end MatrixLang
