import ClassCoverage.Failure

/-! Report formats, and which of the requested ones are rendered. The order of rendering is fixed;
neither the order nor the repetition of requests matters. -/
namespace ClassCoverage.Report

inductive Format where
  | html
  | xml
  | summaryXml
  | txt
  deriving DecidableEq, Repr

namespace Format

def all : List Format := [html, xml, summaryXml, txt]

/-- The formats rendered when none is requested. -/
def defaults : List Format := [txt, xml, html]

def name : Format → String
  | html => "html"
  | xml => "xml"
  | summaryXml => "summaryXml"
  | txt => "txt"

def fileName : Format → String
  | html => "index.html"
  | xml => "coverage.xml"
  | summaryXml => "coverage-summary.xml"
  | txt => "coverage.txt"

def ofName (name : String) : Except Failure Format :=
  match Text.lower name with
  | "html" => .ok html
  | "xml" => .ok xml
  | "summaryxml" => .ok summaryXml
  | "summary-xml" => .ok summaryXml
  | "txt" => .ok txt
  | "text" => .ok txt
  | _ => .error (.setting
      s!"Unknown report format '{name}'. Expected one of: html, xml, summaryXml, txt")

def ofNames (names : List String) : Except Failure (List Format) :=
  if names.isEmpty then .ok defaults else names.mapM ofName

end Format

/-- Whether every requested format is rendered or only the first. -/
inductive Dispatch where
  | all
  | firstMatch
  deriving DecidableEq, Repr

namespace Dispatch

def name : Dispatch → String
  | all => "all"
  | firstMatch => "first-match"

def ofName (name : String) : Except Failure Dispatch :=
  match Text.lower name with
  | "all" => .ok all
  | "first-match" => .ok firstMatch
  | "first_match" => .ok firstMatch
  | "firstmatch" => .ok firstMatch
  | _ => .error (.setting
      s!"Unknown dispatch mode '{name}'. Expected 'all' or 'first-match'")

/-- A request for text alone has no first match. -/
def select (dispatch : Dispatch) (requested : List Format) : List Format :=
  match dispatch with
  | all => Format.all.filter (· ∈ requested)
  | firstMatch => ([Format.html, .xml, .summaryXml].find? (· ∈ requested)).toList

end Dispatch
end ClassCoverage.Report
