/-!
A pattern of single characters and runs, searched for from left to right. A match reaches the end of
the text, and its runs are kept.
-/
namespace DumpImport.Text

inductive Item where
  | one (p : Char → Bool)
  | run (p : Char → Bool)

def greedy {α : Type} (p : Char → Bool) (rest : List Char → Option α) : List Char → Option (List Char × α)
  | [] => none
  | c :: cs =>
    if p c then
      match greedy p rest cs with
      | some (u, a) => some (c :: u, a)
      | none => (rest cs).map fun a => ([c], a)
    else none

def matchHere : List Item → List Char → Option (List (List Char))
  | [], cs => if cs.isEmpty then some [] else none
  | .one p :: ps, c :: cs => if p c then matchHere ps cs else none
  | .one _ :: _, [] => none
  | .run p :: ps, cs => (greedy p (matchHere ps) cs).map fun (u, us) => u :: us

def search (ps : List Item) : List Char → Option (List (List Char))
  | [] => matchHere ps []
  | c :: cs =>
    match matchHere ps (c :: cs) with
    | some us => some us
    | none => search ps cs

end DumpImport.Text
