import Yess.Ext.JsonValue

namespace Yess
namespace Cmd

open Foundation Ext

/-!
# The words of a line

`tokenize` goes over the characters of a line with an index.  Here the index is the
rest of the line, and `Place` says where in the loop the scan stands.  A character
that follows a closing quote is passed over, whatever it is.
-/

/-- Where the scan stands: at the head of the loop, in one of the loops that read a
word, or behind a closing quote. -/
inductive Place where
  | head
  | quoted (quote : Char)
  | bare
  | closed

/-- The words of a scan, whether its last quote is still open, and how far the index
went past the end of the line. -/
structure Scan where
  words : List String
  quoteOpen : Bool
  pastEnd : Nat
  deriving DecidableEq

def Scan.push (scan : Scan) (word : List Char) : Scan :=
  { scan with words := String.ofList word :: scan.words }

/-- The scan of the rest of a line, with the word read so far. -/
def scan : Place → List Char → List Char → Scan
  | .head, _, [] => ⟨[], false, 0⟩
  | .head, _, c :: rest =>
      if c = '"' ∨ c = '\'' then scan (.quoted c) [] rest
      -- A space at the head is an empty word.
      else if c = ' ' then (scan .head [] rest).push []
      else scan .bare [c] rest
  -- Here the index is moved on twice: behind the word, and by the loop.
  | .quoted _, word, [] => ⟨[String.ofList word], true, 2⟩
  | .quoted quote, word, c :: rest =>
      if c = quote then (scan .closed [] rest).push word
      else scan (.quoted quote) (word ++ [c]) rest
  | .bare, word, [] => ⟨[String.ofList word], false, 1⟩
  | .bare, word, c :: rest =>
      if c = ' ' then (scan .head [] rest).push word
      else scan .bare (word ++ [c]) rest
  | .closed, _, [] => ⟨[], false, 1⟩
  | .closed, _, _ :: rest => scan .head [] rest

/-- `int len = command.length()`. -/
def lineLength (command : String) : Int32 := Int32.ofNat command.length

/-- What the loop sees of the line. -/
def seen (command : String) : List Char :=
  command.toList.take (lineLength command).toInt.toNat

def scanLine (command : String) : Scan := scan .head [] (seen command)

/-- The index has no value beyond the largest `int`. -/
def indexOverflows (command : String) : Bool :=
  Int32.maxValue.toInt < (lineLength command).toInt + (scanLine command).pastEnd

/-- `tokenize`. -/
def tokenize {σ : Type} (command : String) : FrontProg σ (List String) :=
  if indexOverflows command then Prog.abort
  else if (scanLine command).quoteOpen then
    Prog.throw (.std (.runtimeError "One of the quotes is open"))
  else pure (scanLine command).words

end Cmd
end Yess
