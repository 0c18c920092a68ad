import DumpImport.Record.Window

namespace DumpImport.Metrics

inductive Metric where
  | recordMapped (collection : String)
  | recordFailed (collection : String)
  | recordFiltered (v : Record.Verdict)
  | recordWritten
  | emptyKey
  | fileLoaded (collection : String)
  | fileTimed (collection : String)
  | retry (operation : String)
deriving DecidableEq, Repr

namespace Metric

def name : Metric → String
  | .recordMapped _ => "records_mapped_total"
  | .recordFailed _ | .emptyKey => "records_failed_total"
  | .recordFiltered _ => "records_filtered_total"
  | .recordWritten => "records_written_total"
  | .fileLoaded _ => "files_loaded_total"
  | .fileTimed _ => "file_processing_duration_seconds_count"
  | .retry _ => "key_service_retries_total"

def label : Metric → Option (String × String)
  | .recordMapped c | .recordFailed c | .fileLoaded c | .fileTimed c => some ("collection", c)
  | .recordFiltered v => some ("status", v.name)
  | .recordWritten => none
  | .emptyKey => some ("reason", "empty_key")
  | .retry operation => some ("operation", operation)

/-- A backslash, a quote or the end of a line is written with a backslash; where a backslash and
the character after it already read so, they stay. -/
def escape : List Char → List Char
  | '\\' :: '\\' :: cs => '\\' :: '\\' :: escape cs
  | '\\' :: '"' :: cs => '\\' :: '"' :: escape cs
  | '\\' :: cs => '\\' :: '\\' :: escape cs
  | '"' :: cs => '\\' :: '"' :: escape cs
  | '\n' :: cs => '\\' :: 'n' :: escape cs
  | c :: cs => c :: escape cs
  | [] => []

def text (x : Metric) : String :=
  x.name ++ match x.label with
    | none => ""
    | some (k, v) => "\x7b" ++ k ++ "=\"" ++ String.ofList (escape v.toList) ++ "\"\x7d"

end Metric

/-- Series and their counts, in the order of their texts. -/
abbrev Tally := List (String × Nat)

def Tally.add (series : String) : Tally → Tally
  | [] => [(series, 1)]
  | (s, n) :: t =>
    if series = s then (s, n + 1) :: t
    else if series < s then (series, 1) :: (s, n) :: t
    else (s, n) :: Tally.add series t

def tally (xs : List Metric) : Tally := xs.foldl (fun t x => t.add x.text) []

end DumpImport.Metrics
