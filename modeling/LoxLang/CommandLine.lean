import LoxLang.Text.CharClass
import LoxLang.Text.Quoted

/-!
# The command line

The command line has flags and at most one file. A long flag may be shortened as long as it stays
the only one with that beginning, and after `--` nothing is a flag any more. Every argument is first
classified by itself; then the arguments are taken from left to right. A flag that is given a value
and a request for help take effect where they stand, and arguments that mean nothing are all named
at the end.
-/

namespace LoxLang
namespace CommandLine

/-- The flags of the command line. -/
inductive Flag
  | help
  | tokens
  | tree
  | plain
deriving DecidableEq

/-- The short flag. -/
def shortHelp : List Char := "-h".toList

/-- The spellings of the flags, in the order in which they are listed. -/
def spellings : List (List Char × Flag) :=
  [(shortHelp, .help), ("--help".toList, .help), ("--tokens".toList, .tokens),
   ("--ast".toList, .tree), ("--no-color".toList, .plain)]

/-- All spellings of one flag, as errors name it. -/
def Flag.title (flag : Flag) : String :=
  "/".intercalate ((spellings.filter (·.2 == flag)).map fun (spelling, _) => String.ofList spelling)

/-- An argument by itself: a plain word, the end of the flags, a flag, possibly with a value, the
short flag for help with more letters behind it, or something that looks like a flag but is none. -/
inductive Item
  | word (text : String)
  | separator
  | unknown (text : String)
  | flag (flag : Flag) (value : Option (List Char))
  | cluster (letters : List Char)

/-- What the user asks for: the help text, a run, or nothing that could be understood. -/
inductive Request
  | help
  | misuse (message : String)
  | start (file : Option String) (flags : List Flag)

/-- An argument up to its first equals sign, and what follows the sign if there is one. -/
def splitValue (argument : List Char) : List Char × Option (List Char) :=
  match argument.dropWhile (· != '=') with
  | [] => (argument, none)
  | _ :: value => (argument.takeWhile (· != '='), some value)

/-- A flag with a value. What is given to the short flag counts as letters behind it. -/
def withValue (spelling : List Char) (flag : Flag) (value : List Char) : Item :=
  if spelling == shortHelp then .cluster value else .flag flag (some value)

/-- The flag with exactly this spelling, and its value if one is given. -/
def spelled? (argument : List Char) : Option Item :=
  match spellings.lookup argument, splitValue argument with
  | some flag, _ => some (.flag flag none)
  | none, (spelling, some value) =>
      (spellings.lookup spelling).map fun flag => withValue spelling flag value
  | none, (_, none) => none

/-- What an argument could stand for, with the spellings of the flags: a long flag may be shortened,
and the short one may have letters attached. -/
def candidates (argument : List Char) : List (List Char × Item) :=
  if "--".toList.isPrefixOf argument then
    let (beginning, value) := splitValue argument
    (spellings.filter fun (spelling, _) => beginning.isPrefixOf spelling).map
      fun (spelling, flag) => (spelling, .flag flag value)
  else if shortHelp.isPrefixOf argument then [(shortHelp, .cluster (argument.drop 2))] else []

/-- Whether an argument is a negative number: digits, or a point with digits behind it. A newline
at the end does not matter. -/
def isNegativeNumber (argument : List Char) : Bool :=
  match argument with
  | '-' :: rest =>
      let numeral := if rest.getLast? == some '\n' then rest.dropLast else rest
      match numeral.dropWhile Text.isDecimalDigit with
      | [] => !numeral.isEmpty
      | '.' :: fraction => !fraction.isEmpty && fraction.all Text.isDecimalDigit
      | _ => false
  | _ => false

/-- Classifies an argument that is not the end of the flags, or tells what is wrong with it. -/
def classify (argument : List Char) : Except String Item :=
  let text := String.ofList argument
  if argument.head? != some '-' then .ok (.word text)
  else
    match spelled? argument with
    | some found => .ok found
    | none =>
        if argument == ['-'] then .ok (.word text)
        else
          match candidates argument with
          | [] =>
              if isNegativeNumber argument || argument.contains ' ' then .ok (.word text)
              else .ok (.unknown text)
          | [(_, found)] => .ok found
          | several =>
              let names := several.map fun (spelling, _) => String.ofList spelling
              .error ("ambiguous option: " ++ text ++ " could match " ++ ", ".intercalate names)

/-- Classifies all arguments. -/
def classifyAll : List String → Except String (List Item)
  | [] => .ok []
  | argument :: rest =>
      if argument == "--" then .ok (.separator :: rest.map .word)
      else
        match classify argument.toList with
        | .error message => .error message
        | .ok found =>
            match classifyAll rest with
            | .error message => .error message
            | .ok items => .ok (found :: items)

/-- What is left of the letters behind the short flag after the flag repeated: nothing, or a value.
Where there are no letters at all the value is empty. -/
def remainder? : List Char → Option (List Char)
  | ['h'] => none
  | 'h' :: letters => remainder? letters
  | value => some value

/-- The complaint about a value that a flag does not take. -/
def ignoredValue (flag : Flag) (value : List Char) : Request :=
  .misuse ("argument " ++ flag.title ++ ": ignored explicit argument " ++
    Text.quoted (String.ofList value))

/-- Which words can still be the file: the next one, the one behind the end of the flags, or none;
directly behind the file the end of the flags is of no interest. -/
inductive Expectation
  | file
  | fileAfterSeparator
  | separator
  | nothing

/-- What is expected behind an argument that is not part of the file. -/
def Expectation.later : Expectation → Expectation
  | .file => .file
  | _ => .nothing

/-- What has been taken so far, where `flags` and `leftovers` are reversed. -/
structure Progress where
  file : Option String := none
  flags : List Flag := []
  leftovers : List String := []
  expectation : Expectation := .file

namespace Progress

/-- Puts an argument aside that means nothing. -/
def leave (progress : Progress) (text : String) : Progress :=
  { progress with
    leftovers := text :: progress.leftovers, expectation := progress.expectation.later }

/-- Takes a flag. -/
def take (progress : Progress) (flag : Flag) : Progress :=
  { progress with flags := flag :: progress.flags, expectation := progress.expectation.later }

/-- Takes a plain word, which is the file if one is expected. -/
def takeWord (progress : Progress) (text : String) : Progress :=
  match progress.expectation with
  | .file => { progress with file := some text, expectation := .separator }
  | .fileAfterSeparator => { progress with file := some text, expectation := .nothing }
  | _ => progress.leave text

/-- Takes the end of the flags. -/
def takeSeparator (progress : Progress) : Progress :=
  match progress.expectation with
  | .file => { progress with expectation := .fileAfterSeparator }
  | .separator => { progress with expectation := .nothing }
  | _ => progress.leave "--"

/-- What is asked for when all arguments have been taken. -/
def request (progress : Progress) : Request :=
  if progress.leftovers.isEmpty then .start progress.file progress.flags.reverse
  else .misuse ("unrecognized arguments: " ++ " ".intercalate progress.leftovers.reverse)

end Progress

/-- Takes arguments from left to right. -/
def takeAll (progress : Progress) : List Item → Request
  | [] => progress.request
  | .word text :: rest => takeAll (progress.takeWord text) rest
  | .separator :: rest => takeAll progress.takeSeparator rest
  | .unknown text :: rest => takeAll (progress.leave text) rest
  | .flag flag (some value) :: _ => ignoredValue flag value
  | .flag .help none :: _ => .help
  | .flag flag none :: rest => takeAll (progress.take flag) rest
  | .cluster letters :: _ =>
      match remainder? letters with
      | some value => ignoredValue .help value
      | none => .help

/-- What the arguments ask for. -/
def request (arguments : List String) : Request :=
  match classifyAll arguments with
  | .error message => .misuse message
  | .ok items => takeAll {} items

/-- How the program is called. -/
def usage : String :=
  "usage: lox [-h] [--tokens] [--ast] [--no-color] [file]\n"

/-- The help text. -/
def helpText : String :=
  usage ++
  "\npositional arguments:\n" ++
  "  file        file to interpret and run (if empty, goes to interactive mode)\n" ++
  "\noptions:\n" ++
  "  -h, --help  show this help message and exit\n" ++
  "  --tokens    print scanned tokens before running\n" ++
  "  --ast       print parsed statements before running\n" ++
  "  --no-color  disable colored error messages\n"

/-- What is printed for arguments that could not be understood. -/
def misuseText (message : String) : String :=
  usage ++ "lox: error: " ++ message ++ "\n"

end CommandLine
end LoxLang
