import DenseBench.Text.Numeral

/-!
# Causes of failure

Every way in which an operation of the library can fail, as data, and the one function that words
them. Readers of files and settings have causes of their own, told apart by kind alone.
-/

namespace DenseBench

open Text

inductive SizeFault
  | tooManyElements (shape : List Nat)
  | notPositive (spec : String)
  | notNumber (spec part : String)
  | noneGiven (name : String)
  | zeroGiven (name : String)
  | wrongCount (workload usage : String) (count : Nat)
  | matrixTooLarge (n : Nat)
  deriving DecidableEq, Repr

inductive ArgumentFault
  | noKeyValue (argument : String)
  | unknownOption (key : String)
  | notNumber (key value : String)
  | onlyScalars
  | notUnary (op : String)
  | notBinary (op : String)
  deriving DecidableEq, Repr

/-- What was asked of an element type that has no answer for it. -/
inductive TypeUse
  | parsing
  | random
  deriving DecidableEq, Repr

inductive SymbolKind
  | ufunc
  | dtype
  deriving DecidableEq, Repr

def SymbolKind.name : SymbolKind → String
  | .ufunc => "ufunc"
  | .dtype => "dtype"

/-- What the names of a path or the bytes of a file do not allow, or what the machine does not, in
its own words. -/
inductive FileFault
  | notFound
  | isFolder
  | notFolder
  | nulInName
  | nameTooLong
  | notText
  | machine (reason : String)
  deriving DecidableEq, Repr

/-- Malformed text, text that ends too soon, or well-formed text that is not the wanted record. -/
inductive JsonFault
  | malformed
  | endsEarly
  | unfit
  deriving DecidableEq, Repr

/-- A file that is not there, is of no known format or malformed, a value that cannot become the
wanted type, an unknown choice, or a value of the wrong structure. -/
inductive SettingsFault
  | noSource (path : String)
  | unknownFormat (path : String)
  | malformed (path : String)
  | wrongType
  | unknownChoice (name : String)
  | wrongForm
  deriving DecidableEq, Repr

inductive Error
  | invalidSize (fault : SizeFault)
  | unsupportedType (dtype : String) (use : TypeUse)
  | unknownName (name : String)
  | duplicateName (name : String)
  | wrongSymbolKind (name : String) (expected : SymbolKind)
  | arity (name : String) (expected actual : Nat)
  | shapeMismatch (lhs rhs : List Nat)
  | notSquare (shape : List Nat)
  | singularPivot (row : Nat)
  | notReducible (name : String)
  | timerNotStarted
  | unknownEngine (name : String)
  | unknownWorkload (name : String)
  | invalidArgument (fault : ArgumentFault)
  | threadPool (reason : String)
  | settings (fault : SettingsFault)
  | file (fault : FileFault)
  | json (fault : JsonFault)
  | csv (fault : FileFault)
  deriving DecidableEq, Repr

def SizeFault.message : SizeFault → String
  | .tooManyElements shape => "shape " ++ bracketed shape ++ " has too many elements"
  | .notPositive spec => "'" ++ spec ++ "': sizes must be positive"
  | .notNumber spec part => "'" ++ spec ++ "': '" ++ part ++ "' is not a number"
  | .noneGiven name => name ++ ": no sizes given"
  | .zeroGiven name => name ++ ": sizes must be positive"
  | .wrongCount workload usage count =>
    workload ++ " expects --size=" ++ usage ++ ", got " ++ numeralText count ++ " value(s)"
  | .matrixTooLarge n =>
    "lu: " ++ numeralText n ++ "x" ++ numeralText n ++ " matrix is too large"

def ArgumentFault.message : ArgumentFault → String
  | .noKeyValue argument => "expected --key=value, got '" ++ argument ++ "'"
  | .unknownOption key => "unknown option '--" ++ key ++ "'"
  | .notNumber key value => "--" ++ key ++ " expects a number, got '" ++ value ++ "'"
  | .onlyScalars => "binary ufunc needs at least one array operand"
  | .notUnary op => op ++ " is not a unary op"
  | .notBinary op => op ++ " is not a binary op"

def TypeUse.name : TypeUse → String
  | .parsing => "parsing"
  | .random => "random"

def FileFault.message : FileFault → String
  | .notFound => "No such file or directory (os error 2)"
  | .isFolder => "Is a directory (os error 21)"
  | .notFolder => "Not a directory (os error 20)"
  | .nulInName => "file name contained an unexpected NUL byte"
  | .nameTooLong => "File name too long (os error 36)"
  | .notText => "stream did not contain valid UTF-8"
  | .machine reason => reason

def JsonFault.message : JsonFault → String
  | .malformed => "malformed JSON"
  | .endsEarly => "JSON ends too soon"
  | .unfit => "JSON does not hold the wanted record"

def SettingsFault.message : SettingsFault → String
  | .noSource path => "configuration file \"" ++ path ++ "\" not found"
  | .unknownFormat path =>
    "configuration file \"" ++ path ++ "\" is not of a registered file format"
  | .malformed path => "malformed text in " ++ path
  | .wrongType => "configuration value has the wrong type"
  | .unknownChoice name => "configuration value is none of the choices: " ++ name
  | .wrongForm => "configuration value is of the wrong form"

def Error.message : Error → String
  | .invalidSize fault => "invalid size specification: " ++ fault.message
  | .unsupportedType dtype use => "unsupported element type " ++ dtype ++ " for " ++ use.name
  | .unknownName name => "no symbol named '" ++ name ++ "'"
  | .duplicateName name => "symbol '" ++ name ++ "' is registered more than once"
  | .wrongSymbolKind name expected => "symbol '" ++ name ++ "' is not a " ++ expected.name
  | .arity name expected actual =>
    name ++ " takes " ++ numeralText expected ++ " operand(s), got " ++ numeralText actual
  | .shapeMismatch lhs rhs =>
    "operand shapes " ++ bracketed lhs ++ " and " ++ bracketed rhs ++ " do not match"
  | .notSquare shape => "expected a square matrix, got shape " ++ bracketed shape
  | .singularPivot row =>
    "zero pivot at row " ++ numeralText row ++ "; matrix cannot be factored without pivoting"
  | .notReducible name => name ++ " has no identity and cannot be reduced"
  | .timerNotStarted => "timer was not started"
  | .unknownEngine name => "unknown engine '" ++ name ++ "'"
  | .unknownWorkload name => "unknown benchmark '" ++ name ++ "'"
  | .invalidArgument fault => "invalid argument: " ++ fault.message
  | .threadPool reason => "failed to build thread pool: " ++ reason
  | .settings fault => fault.message
  | .file fault => fault.message
  | .json fault => fault.message
  | .csv fault => fault.message

end DenseBench
