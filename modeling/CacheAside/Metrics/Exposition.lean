import CacheAside.Metrics.Collector
import CacheAside.Misfit

/-! # Metrics as samples and as text

A counter has one sample for a series, a histogram one for each bound, counting what is at most the
bound, then how many there are and their sum. The text gives each family its help and type before its
samples, the labels of a sample in the order of their names. -/

namespace CacheAside
set_option autoImplicit false

structure Sample where
  name : String
  labels : List (String × Json)
  value : Float

namespace Sample

/-! ## Order -/

/-- The values of labels are put in order by their plain text. -/
def labelsBefore : List (String × Json) → List (String × Json) → Bool
  | [], _ => true
  | _ :: _, [] => false
  | (n₁, v₁) :: r₁, (n₂, v₂) :: r₂ =>
    if n₁ ≠ n₂ then decide (n₁ < n₂)
    else if v₁.plain ≠ v₂.plain then decide (v₁.plain < v₂.plain)
    else labelsBefore r₁ r₂

/-- By name, then by the labels. -/
def before (a b : Sample) : Bool :=
  if a.name ≠ b.name then decide (a.name < b.name) else labelsBefore a.labels b.labels

/-! ## Text -/

def sampleNumber : Number.Style := ⟨"NaN", "+Inf", "-Inf"⟩

/-- A positive number of a million or more is written with an exponent. -/
def valueText (x : Float) : String :=
  let cs := Number.chars sampleNumber x
  let whole := cs.takeWhile (· ≠ '.')
  if x > 0.0 ∧ 6 < whole.length ∧ whole.length < cs.length then
    let fraction := cs.drop (whole.length + 1)
    let mantissa := whole.take 1 ++ '.' :: (whole.drop 1 ++ fraction)
    let kept := (mantissa.reverse.dropWhile fun c => c = '0' ∨ c = '.').reverse
    String.ofList (kept ++ 'e' :: Number.exponentText (whole.length - 1 : Nat))
  else String.ofList cs

def escapeLabel (value : String) : String :=
  String.ofList (value.toList.flatMap fun c =>
    if c = '\\' then ['\\', '\\'] else if c = '\n' then ['\\', 'n']
    else if c = '"' then ['\\', '"'] else [c])

def labelText (label : String × Json) : String :=
  label.1 ++ "=\"" ++ escapeLabel label.2.plain ++ "\""

def line (s : Sample) : String :=
  let labels :=
    if s.labels.isEmpty then "" else "\x7b" ++ ",".intercalate (s.labels.map labelText) ++ "\x7d"
  s.name ++ labels ++ " " ++ valueText s.value

end Sample

/-! ## Samples -/

/-- Labels in the order of their names. -/
def sortLabels (labels : List (String × Json)) : List (String × Json) :=
  labels.mergeSort fun a b => decide (a.1 ≤ b.1)

/-- The bounds of a histogram. -/
def bounds : List Float :=
  [0.005, 0.01, 0.025, 0.05, 0.075, 0.1, 0.25, 0.5, 0.75, 1.0, 2.5, 5.0, 7.5, 10.0, Decimal.infinity]

def Family.samples (name : String) (f : Family) : List Sample :=
  match f.series with
  | .counts rows => rows.map fun (values, n) =>
    ⟨name, sortLabels (f.labels.zip (values.map .str)), Float.ofNat n⟩
  | .observations rows => rows.flatMap fun (values, xs) =>
    let labels := f.labels.zip (values.map Json.str)
    let atMost (bound : Float) := Float.ofNat (xs.filter fun x => x ≤ bound).length
    (bounds.map fun bound =>
      ⟨name ++ "_bucket", sortLabels (labels ++ [("le", .str (Sample.valueText bound))]), atMost bound⟩) ++
    [⟨name ++ "_count", sortLabels labels, atMost Decimal.infinity⟩,
     ⟨name ++ "_sum", sortLabels labels, xs.foldl (· + ·) 0.0⟩]

def Family.kind (f : Family) : String :=
  match f.series with
  | .counts _ => "counter"
  | .observations _ => "histogram"

namespace Collector

/-- The sample that names the service. -/
def infoSample (c : Collector) : Sample :=
  ⟨infoFamily ++ "_info", [("service", c.service), ("version", .str "1.0.0")], 1.0⟩

/-- All samples in order of name and labels. -/
def samples (c : Collector) : List Sample :=
  (c.infoSample :: c.families.rows.flatMap fun (name, f) => f.samples name).mergeSort Sample.before

def headerLines (name help kind : String) : List String :=
  ["# HELP " ++ name ++ " " ++ help, "# TYPE " ++ name ++ " " ++ kind]

/-- What keeps the collector from being written as text: the name of a service that is none. -/
def writingFault? (c : Collector) : Option NotText :=
  if c.service.text?.isSome then none else some ⟨c.service, .replaced⟩

/-- The lines of the text format. -/
def lines (c : Collector) : List String :=
  headerLines c.infoSample.name "Service information" "gauge" ++ c.infoSample.line ::
    c.families.rows.flatMap fun (name, f) =>
      headerLines name f.help f.kind ++ (f.samples name).map Sample.line

end Collector
end CacheAside
