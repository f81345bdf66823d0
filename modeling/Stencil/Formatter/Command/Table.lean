/-
  Stencil.Formatter.Command.Table
  ───────────────────────────────
  The commands there are, by their names.
-/
import Stencil.Formatter.Command.Blocks
import Stencil.Formatter.Command.Checksum
import Stencil.Formatter.Command.Count
import Stencil.Formatter.Command.Dump
import Stencil.Formatter.Command.Edit
import Stencil.Formatter.Command.Encode
import Stencil.Formatter.Command.Exchange
import Stencil.Formatter.Command.Facts
import Stencil.Formatter.Command.Fill
import Stencil.Formatter.Command.Join
import Stencil.Formatter.Command.Listing
import Stencil.Formatter.Command.Order
import Stencil.Formatter.Command.Records
import Stencil.Formatter.Command.Search
import Stencil.Formatter.Command.Test

namespace Stencil.Script

open Text (Byte)

/-! ## §1. Small commands. -/

/-- Write the arguments on a line, with their escapes resolved. -/
def echoCommand : Command := fun c => c.say (echo c.args)

/-- Write the arguments on a line as they are; options ask for no line end and
for escapes. -/
def plainEcho : Command := fun c =>
  let isOption (arg : String) : Bool :=
    match arg.toList with
    | '-' :: letter :: letters => (letter :: letters).all fun l => "neE".toList.contains l
    | _ => false
  let options := c.args.takeWhile isOption
  let letters := options.flatMap fun o => o.toList
  let text := " ".intercalate (c.args.drop options.length)
  let ending := if letters.contains 'n' then "" else "\n"
  if letters.contains 'e' then
    let (bytes, stopped) := unescape text.toList
    c.say (if stopped then bytes else bytes ++ bytesOf ending)
  else c.say (bytesOf (text ++ ending))

/-- The wording of a fault in a format, as scripts tell it. -/
def PrintFault.ownMessage : PrintFault → String
  | .noNumber arg => arg ++ ": expected numeric value"
  | .partNumber arg => arg ++ ": not completely converted"
  | .outOfBounds arg => arg ++ ": Numerical result out of range"
  | .noDirective text =>
      if text.toList.getLast?.any Char.isAlpha then text ++ ": invalid directive"
      else "missing format character"

/-- The wording of a fault in a format, as the program tells it. -/
def PrintFault.message : PrintFault → String
  | .noNumber arg => quotedArg arg ++ ": expected a numeric value"
  | .partNumber arg => quotedArg arg ++ ": value not completely converted"
  | .outOfBounds arg => quotedArg arg ++ ": Numerical result out of range"
  | .noDirective text => text ++ ": invalid conversion specification"

/-- Does the fault put an end to a format? -/
def PrintFault.ends : PrintFault → Bool
  | .noDirective _ => true
  | _ => false

/-- Write the arguments as a format asks for it, by the script itself. -/
def ownPrintf : Command := fun c =>
  let write (format : String) (args : List String) : Result :=
    let p := printf false format args
    let told := p.faults.map fun f => (Channel.errors, c.complaint f.ownMessage)
    ⟨if p.faults.any PrintFault.ends then 2 else if p.faults.isEmpty then 0 else 1,
      told ++ [(.output, p.bytes)], c.input, c.tree⟩
  match c.args with
  | [] | ["--"] => c.fail 2 "usage: printf format [arg ...]"
  | "--" :: format :: rest => write format rest
  | format :: rest =>
      match format.toList with
      | '-' :: letter :: _ => c.fail 2 ("Illegal option -" ++ letter.toString)
      | _ => write format rest

/-- Write the arguments as a format asks for it. -/
def printfProgram : Command := fun c =>
  let args := if c.args.head? = some "--" then c.args.tail else c.args
  match args with
  | [] => c.misuse 1 "missing operand"
  | format :: rest =>
      let p := printf true format rest
      let told := p.faults.map fun f => (Channel.errors, c.complaint f.message)
      let extra := if p.stopped then [] else p.args.take 1 |>.map fun arg =>
        (Channel.errors, c.complaint ("warning: ignoring excess arguments, starting with "
          ++ quotedArg arg))
      ⟨if p.faults.isEmpty then 0 else 1, told ++ [(.output, p.bytes)] ++ extra, c.input, c.tree⟩

/-- How often a line is written that is written without end. -/
def endlessLines : Nat := 10000

/-- Write a line again and again: as often as anybody reads it. -/
def yes : Command := fun c =>
  let text := if c.args.isEmpty then "y" else " ".intercalate c.args
  c.say (List.replicate endlessLines (bytesOf (text ++ "\n"))).flatten

/-- Wait, which takes no time here. -/
def sleep : Command := fun c =>
  match c.args, c.args.find? fun arg => (durationOf? arg).isNone with
  | [], _ => c.misuse 1 "missing operand"
  | _, some arg => c.misuse 1 ("invalid time interval " ++ quotedArg arg)
  | _, none => c.silent 0

/-! ## §2. The table. -/

/-- The commands that tell sums of files. -/
def sumPrograms : List (String × Command) :=
  [("md5sum", digestCommand md5), ("sha1sum", digestCommand sha1),
   ("sha224sum", digestCommand sha224), ("sha256sum", digestCommand sha256),
   ("sha384sum", digestCommand sha384), ("sha512sum", digestCommand sha512), ("b2sum", b2sum),
   ("sum", sumCommand), ("cksum", cksum)]

/-- The commands that work on texts. -/
def textPrograms : List (String × Command) :=
  [("cat", cat), ("head", head), ("tail", tail), ("cut", cut), ("rev", rev), ("tac", tac),
   ("fold", fold), ("expand", expand), ("unexpand", unexpand), ("nl", nl), ("paste", paste),
   ("fmt", fmt), ("comm", comm), ("cmp", cmp), ("diff", diff), ("join", join), ("tsort", tsort),
   ("tr", tr), ("sort", sort), ("uniq", uniq), ("wc", wc), ("seq", seq), ("grep", grep none),
   ("egrep", grep (some "E")), ("fgrep", grep (some "F")), ("sed", sed), ("awk", awk),
   ("mawk", awk), ("od", od), ("base64", convertCommand (sixBits "+/")),
   ("base32", convertCommand (fiveBits "ABCDEFGHIJKLMNOPQRSTUVWXYZ234567")), ("basenc", basenc)]

/-- The commands that work on files. -/
def filePrograms : List (String × Command) :=
  [("basename", basename), ("dirname", dirname), ("tee", tee), ("rm", rm), ("mkdir", mkdir),
   ("rmdir", rmdir), ("touch", touch), ("cp", transfer false), ("mv", transfer true), ("ln", ln),
   ("ls", ls), ("dd", dd), ("split", split), ("truncate", truncate), ("stat", stat),
   ("realpath", tellPaths false), ("readlink", tellPaths true), ("unlink", unlink), ("link", link),
   ("sync", fun c => c.silent 0), ("chmod", fun c => c.silent 0)]

/-- The commands that are programs, by their names. -/
def programs : List (String × Command) :=
  textPrograms ++ filePrograms ++ sumPrograms
    ++ [("echo", plainEcho), ("printf", printfProgram), ("test", testWith ["=="]),
      ("[", bracketsWith ["=="]), ("expr", expr), ("true", fun c => c.silent 0),
      ("false", fun c => c.silent 1), ("sleep", sleep), ("yes", yes), ("factor", factor),
      ("uname", uname), ("tty", tty)]

/-- The commands that scripts know by themselves, where they differ. -/
def ownCommands : List (String × Command) :=
  [("echo", echoCommand), ("printf", ownPrintf), ("test", testWith []), ("[", bracketsWith []),
   ("true", fun c => c.silent 0), ("false", fun c => c.silent 1)]

/-- The directories that programs are in. -/
def programDirectories : List String := ["/bin/", "/usr/bin/"]

/-- The name of a program without the directory it is in. -/
def programName (name : String) : String :=
  match programDirectories.find? fun directory => directory.toList.isPrefixOf name.toList with
  | some directory => String.ofList (name.toList.drop directory.length)
  | none => name

/-- A program by its name or its path. -/
def program? (name : String) : Option Command :=
  programs.lookup (programName name)

/-- A command by its name. -/
def command? (name : String) : Option Command :=
  (ownCommands.lookup name).orElse fun _ => program? name

end Stencil.Script
