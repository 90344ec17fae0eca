import PhpAudit.Check.Rule
import PhpAudit.Report.Document
import PhpAudit.Text.Blank

/-!
Results as text for people: a section for every file with violations, the number of violations
of each rule, and the number of files. The text may be coloured for a terminal.
-/

namespace PhpAudit

/-- Whether text is coloured. -/
inductive Palette where
  | plain | coloured
deriving DecidableEq, Inhabited

namespace Palette

/-- Puts the codes around a text; the last code stands first. -/
def paint (palette : Palette) (codes : List Nat) (text : String) : String :=
  match palette with
  | plain => text
  | coloured =>
      codes.foldl (fun painted code => "\x1b[" ++ toString code ++ "m" ++ painted) text ++ "\x1b[0m"

def bold : Nat := 1
def red : Nat := 31
def green : Nat := 32
def yellow : Nat := 33
def blue : Nat := 34
def white : Nat := 97

end Palette

/-- The seconds with two places; nothing measured counts as zero. -/
def Duration.text : Option Duration → String
  | none => twoPlacesText 0.0
  | some (whole seconds) => twoPlacesText (Float.ofInt seconds)
  | some (measured seconds) => twoPlacesText (if seconds == 0.0 then 0.0 else seconds)

namespace Results

open Palette in
def violationLines (palette : Palette) (violation : Violation) : List String :=
  let place := toString violation.span.line ++ ":" ++ toString violation.span.column
  ["  " ++ palette.paint [yellow, bold] violation.rule ++ ": " ++ violation.suggestion,
    "    " ++ palette.paint [blue] place ++ " | " ++
      String.ofList (trim violation.line.toList)]

open Palette in
def fileLines (palette : Palette) (path : String) (violations : List Violation) : List String :=
  let count := toString violations.length ++ " violation(s)"
  (palette.paint [white, bold] path ++ ", detected " ++ palette.paint [red] count ++ ":") ::
    violations.flatMap (violationLines palette) ++ [""]

def sections (palette : Palette) (results : Results) : List String :=
  results.files.flatMap fun (path, violations) =>
    if violations.isEmpty then [] else fileLines palette path violations

open Palette in
def rankingLines (palette : Palette) (results : Results) : List String :=
  if results.counts.isEmpty then []
  else
    palette.paint [bold] "Summary:" ::
      (results.ranking.map fun (code, count) =>
        let description := ((Check.ofCode? code).map Check.description).getD ""
        "  " ++ palette.paint [yellow] code ++ " " ++ description ++ ": " ++ toString count) ++
      [""]

open Palette in
def closingLine (palette : Palette) (results : Results) : String :=
  palette.paint [if results.hasViolations then red else green]
    ("Analysed " ++ toString results.fileCount ++ " files in " ++
      Duration.text results.duration ++ "s")

def summary (palette : Palette) (results : Results) : List String :=
  rankingLines palette results ++ [closingLine palette results]

/-- The whole text, or only the part after the sections of the files. -/
def report (palette : Palette) (summaryOnly : Bool) (results : Results) : String :=
  let lines := (if summaryOnly then [] else sections palette results) ++ summary palette results
  "\n".intercalate lines ++ "\n"

end Results

end PhpAudit
