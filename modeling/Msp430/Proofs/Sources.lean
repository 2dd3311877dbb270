import Mathlib.Data.List.Basic
import Msp430.Dialect.Compact
import Msp430.Dialect.Extended
import Msp430.Proofs.SymbolTable

/-!
Lines of the dialects.  What a line does to a listing depends on two things only, the
label in front of its colon and what the rest of it asks for, and the three assemblers
read a text in one way.  One line is described by `Listing.read`, a text by
`Listing.run`; an encoder then turns the listing into words one statement at a time.
-/

namespace Msp430
namespace Dialect

/-! ### Lines -/

/-- What the part of a line after its label asks for. -/
inductive Content where
  | blank
  | start (operand : String)
  | final
  | statement (command : String) (operands : List String)
  deriving Repr, DecidableEq

def Content.ofText (text : List Char) : Content :=
  match Text.firstWord text with
  | ([], _) => .blank
  | (word, field) =>
      if String.ofList word = "START" then .start (String.ofList field)
      else if String.ofList word = "END" then .final
      else .statement (String.ofList word) (Listing.operandsOf field)

/-- The value that a successful `START` gives to the counter. -/
def Content.restart? : Content → Option Int
  | .start operand => if operand = "" then some 0 else Numeral.hex? operand
  | _ => none

/-- Neither a statement nor `END` nor a `START` that succeeds. -/
def Content.isIdle : Content → Bool
  | .blank => true
  | .start operand => (Content.start operand).restart?.isNone
  | _ => false

structure Line where
  label : Option String
  content : Content
  deriving Repr, DecidableEq

def Line.ofText (text : List Char) : Line :=
  match Text.cut? ':' text with
  | some sides =>
      { label := some (String.ofList (Text.trim sides.1)), content := .ofText sides.2 }
  | none => { label := none, content := .ofText text }

def Line.ofLine (line : List Char) : Line :=
  ofText (Text.before ';' line)

def Line.all (source : String) : List Line :=
  (Text.lines source.toList).map ofLine

namespace Listing

def perform (listing : Listing) : Content → Listing
  | .blank => listing
  | .start operand => listing.startAt operand
  | .final => { listing with symbols := listing.symbols.insert "END" listing.counter }
  | .statement command operands =>
      { listing with
        counter := listing.counter + 2
        statements := listing.statements ++
          [{ command := command, operands := operands, address := listing.counter }] }

def labelled (listing : Listing) : Option String → Listing
  | none => listing
  | some name => listing.define name

def read (listing : Listing) (line : Line) : Listing :=
  (listing.labelled line.label).perform line.content

/-- Read lines up to the first that asks for the end. -/
def run (listing : Listing) : List Line → Listing
  | [] => listing
  | line :: others =>
      if line.content = .final then listing.read line else (listing.read line).run others

theorem readStatement_eq (listing : Listing) (text : List Char) :
    listing.readStatement text =
      (listing.perform (.ofText text), decide (Content.ofText text = .final)) := by
  unfold readStatement Content.ofText
  obtain ⟨word, field⟩ := Text.firstWord text
  cases word with
  | nil => rfl
  | cons c rest =>
      by_cases start : String.ofList (c :: rest) = "START"
      · simp only [start, if_true]
        rfl
      · by_cases final : String.ofList (c :: rest) = "END"
        · simp only [final, if_neg (by decide : ¬ "END" = "START"), if_true]
          rfl
        · simp only [if_neg start, if_neg final]
          rfl

theorem readLine_eq (listing : Listing) (text : List Char) :
    listing.readLine text =
      (listing.read (.ofText text), decide ((Line.ofText text).content = .final)) := by
  unfold readLine Line.ofText
  cases Text.cut? ':' text with
  | some sides => exact readStatement_eq _ sides.2
  | none => exact readStatement_eq listing text

theorem readLines_eq (listing : Listing) (texts : List (List Char)) :
    listing.readLines texts = listing.run (texts.map Line.ofText) := by
  induction texts generalizing listing with
  | nil => rfl
  | cons text others inductionHypothesis =>
      rw [readLines, readLine_eq, List.map_cons, run]
      by_cases final : (Line.ofText text).content = .final
      · rw [if_pos final, decide_eq_true final]
      · rw [if_neg final, decide_eq_false final]
        exact inductionHypothesis _

def ofSource (source : String) : Listing :=
  empty.run (Line.all source)

theorem readLines_source (source : String) :
    empty.readLines ((Text.lines source.toList).map (Text.before ';')) = ofSource source := by
  rw [readLines_eq, List.map_map]
  rfl

end Listing

/-! ### Assemblers -/

/-- An assembly shows a listing: its symbols, and for each statement the words that it is
given. -/
structure Assembly.Shows (assembly : Assembly) (listing : Listing)
    (words : Statement → List ObjectWord) : Prop where
  symbols : assembly.symbols = listing.symbols
  object : assembly.object = (listing.statements.flatMap words).map ObjectWord.line

namespace Encoder

/-- The words of a statement, none if it is wrong. -/
def words (encoder : Encoder) (statement : Statement) : List ObjectWord :=
  match encoder statement with
  | .ok found => found
  | .error _ => []

/-- What is wrong with a statement, if anything is. -/
def complaints (encoder : Encoder) (statement : Statement) : List Complaint :=
  match encoder statement with
  | .ok _ => []
  | .error complaint => [complaint]

theorem encodeAll_eq (encoder : Encoder) (statements : List Statement) :
    encoder.encodeAll statements =
      (statements.flatMap encoder.words, statements.flatMap encoder.complaints) := by
  induction statements with
  | nil => rfl
  | cons statement others inductionHypothesis =>
      rw [encodeAll, inductionHypothesis, List.flatMap_cons, List.flatMap_cons, words, complaints]
      cases encoder statement with
      | ok found => rfl
      | error complaint => rfl

end Encoder

theorem Listing.assemble_eq (listing : Listing) (encoder : SymbolTable → Encoder) :
    listing.assemble encoder =
      { object :=
          (listing.statements.flatMap (encoder listing.symbols).words).map ObjectWord.line
        errors :=
          (listing.complaints ++
            listing.statements.flatMap (encoder listing.symbols).complaints).map
              Complaint.message
        symbols := listing.symbols } := by
  rw [assemble, Encoder.encodeAll_eq]

theorem Listing.shows_assemble (listing : Listing) (encoder : SymbolTable → Encoder) :
    (listing.assemble encoder).Shows listing (encoder listing.symbols).words := by
  rw [assemble_eq]
  exact ⟨rfl, rfl⟩

theorem Compact.assemble_eq {settings : Settings} (marked : settings.commentMark = some ';')
    (source : String) :
    assemble settings source = .ok ((Listing.ofSource source).assemble (encoder settings)) := by
  unfold assemble readSource
  simp only [marked, Listing.readLines_source]

theorem Extended.assemble_eq (source : String) :
    assemble source = (Listing.ofSource source).assemble encoder := by
  unfold assemble
  rw [Listing.readLines_source]

end Dialect
end Msp430
