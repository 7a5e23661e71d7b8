import SampleHarvest.Text.Utf8
import SampleHarvest.Toml.Grammar

/-!
# Places in documents

The entries of a document do not say where they were written. The place of a value is found by
reading the statements once more: each of them stands for a table or a value that steps lead to, and
the steps that are left lead into arrays and tables between braces.

A table that was only passed through stands nowhere; its place is that of the key that began it.
-/

namespace SampleHarvest

namespace Toml

/-- A part of a document, given by what is left of it at the beginning and behind the end. -/
structure Span where
  start : Text
  stop : Text
  deriving DecidableEq, Repr

/-- A header or an assignment. -/
structure Site where
  isHeader : Bool
  /-- The steps to the table in which its keys begin. -/
  base : List Step
  keys : Text
  path : List Step
  /-- Where the value is, or the table with its header. -/
  span : Span
  deriving DecidableEq, Repr

/-- Whether a step goes to the value of a key. -/
def Step.isKey : Step → Bool
  | key _ => true
  | index _ => false

/-- Where a key stands that this many keys come before. -/
def keySpan? : (before : Nat) → Text → Option Span
  | before, t =>
    match key (skipSpace t) with
    | .error _ => none
    | .ok (_, rest) =>
      match before with
      | 0 => some ⟨skipSpace t, rest⟩
      | before + 1 =>
        match skipSpace rest with
        | '.' :: rest => keySpan? before rest
        | _ => none

/-- The steps that lead from a table along keys, into the last table of each row on the way. Each
row stands in `rows` once for every table it has. -/
def stepsAlong (rows : List (List Step)) : (base : List Step) → (keys : List Text) → List Step
  | base, [] => base
  | base, key :: keys =>
    let path := base ++ [.key key]
    match rows.count path with
    | 0 => stepsAlong rows path keys
    | last + 1 => stepsAlong rows (path ++ [.index last]) keys

def headerSteps (rows : List (List Step)) (keys : List Text) : List Step :=
  stepsAlong rows [] keys.dropLast ++ keys.getLast?.toList.map .key

/-- What is left behind a header whose keys begin here. -/
def behindHeader (closing : Text) (t : Text) : Text :=
  match keyPath t with
  | .ok (_, rest) => rest.dropLead closing
  | .error _ => t

def valueSpan? (t : Text) : Option Span := do
  let (_, t) ← (keyPath t).toOption
  let (_, start) ← (equals t).toOption
  let (_, stop) ← (value maxDepth start).toOption
  return ⟨start, stop⟩

/-- A header before the assignments in its table and everything that follows. -/
def Site.extended (site : Site) (others : List Site) : Site :=
  match (others.takeWhile fun other => !other.isHeader).getLast? with
  | some last => { site with span := ⟨site.span.start, last.span.stop⟩ }
  | none => site

/-- The headers and assignments of a document, of which at most this many statements are read. The
rows so far and the table that assignments go to are given. -/
def sites : (most : Nat) → (rows : List (List Step)) → (base : List Step) → Text → List Site
  | 0, _, _, _ => []
  | most + 1, rows, base, t =>
    let t := skipSpace t
    match statement t with
    | .error _ => []
    | .ok (none, rest) => sites most rows base rest
    | .ok (some (.header keys), rest) =>
      let path := headerSteps rows keys
      let start := t.drop 1
      let site : Site := ⟨true, [], start, path, ⟨t, behindHeader ['\x5d'] start⟩⟩
      let others := sites most rows path rest
      site.extended others :: others
    | .ok (some (.rowHeader keys), rest) =>
      let row := headerSteps rows keys
      let path := row ++ [.index (rows.count row)]
      let start := t.drop 2
      let site : Site := ⟨true, [], start, path, ⟨t, behindHeader ['\x5d', '\x5d'] start⟩⟩
      let others := sites most (row :: rows) path rest
      site.extended others :: others
    | .ok (some (.assignment keys _), rest) =>
      let others := sites most rows base rest
      match valueSpan? t with
      | some span => ⟨false, base, t, base ++ keys.map .key, span⟩ :: others
      | none => others

/-- Where the key stands to whose value steps lead, if they lead along the keys of a site. -/
def Site.keySpan? (site : Site) (path : List Step) : Option Span :=
  if site.base.length < path.length ∧ path.isPrefixOf site.path then
    Toml.keySpan? (((path.drop site.base.length).filter Step.isKey).length - 1) site.keys
  else none

/-- What is left where each element of an array begins, of which at most this many are read. -/
def elementStarts : (most : Nat) → Text → List Text
  | 0, _ => []
  | most + 1, t =>
    let t := skipLines false t
    match value maxDepth t with
    | .error _ => []
    | .ok (_, rest) =>
      match skipLines false rest with
      | ',' :: rest => t :: elementStarts most rest
      | _ => [t]

/-- The keys of each pair between braces with what is left where the keys and the value begin; at
most this many pairs are read. -/
def pairStarts : (most : Nat) → Text → List (List Step × Text × Text)
  | 0, _ => []
  | most + 1, t =>
    match inlinePair (value maxDepth) t, valueSpan? t with
    | .ok ((keys, _), rest), some span =>
      let first : List Step × Text × Text := (keys.map .key, t, span.start)
      match rest with
      | ',' :: rest => first :: pairStarts most rest
      | _ => [first]
    | _, _ => []

/-- Whether steps lead on from where other steps lead. To get to a key they have to be longer. -/
def leadsOn (toKey : Bool) (path front : List Step) : Bool :=
  front.isPrefixOf path && !(toKey && front == path)

/-- Where the value stands to which steps lead from the value that begins here, or its key. At most
this many arrays and tables are gone into. -/
def within? (toKey : Bool) : (most : Nat) → (path : List Step) → Text → Option Span
  | _, [], t => (value maxDepth t).toOption.map fun (_, rest) => ⟨t, rest⟩
  | most + 1, .index position :: path, '[' :: t =>
    (elementStarts (t.length + 1) t)[position]?.bind (within? toKey most path)
  | most + 1, path, '\x7b' :: t =>
    let pairs := pairStarts (t.length + 1) t
    match pairs.find? fun (keys, _) => leadsOn toKey path keys with
    | some (keys, _, start) => within? toKey most (path.drop keys.length) start
    | none => do
      let (_, start, _) ← pairs.find? fun (keys, _) => path.isPrefixOf keys
      Toml.keySpan? (path.length - 1) start
  | _, _, _ => none

/-- Where the key stands that began a table or a value of a document. -/
def keyAmong? (sites : List Site) (path : List Step) : Option Span :=
  match sites.find? fun site => site.isHeader && site.path == path with
  | some site => site.keySpan? path
  | none => sites.findSome? fun site => site.keySpan? path

/-- Where a table or a row of tables stands. -/
def tableAmong? (sites : List Site) (path : List Step) : Option Span :=
  match sites.find? fun site => site.isHeader && site.path == path with
  | some site => some site.span
  | none => do
    let row := sites.filter fun site =>
      site.isHeader && site.path.dropLast == path && !site.path.getLast?.all Step.isKey
    return ⟨(← row.head?).span.start, (← row.getLast?).span.stop⟩

/-- Where the value stands in a document to which steps lead, or its key. -/
def spanAt? (toKey : Bool) (source : Text) (path : List Step) : Option Span :=
  let found := sites (source.length + 1) [] [] (unmarked source)
  match found.find? fun site => !site.isHeader && leadsOn toKey path site.path with
  | some site => within? toKey path.length (path.drop site.path.length) site.span.start
  | none => (if toKey then none else tableAmong? found path) <|> keyAmong? found path

/-- The part of a document that a fault is about. -/
def Fault.span (fault : Fault) (source : Text) : Span :=
  match fault.place with
  | .before rest => ⟨rest, rest.drop 1⟩
  | .value path => (spanAt? false source path).getD ⟨source, source⟩
  | .key path => (spanAt? true source path).getD ⟨source, source⟩

/-- How many characters stand before what is left of a document. -/
def position (source rest : Text) : Nat := source.length - rest.length

/-- The column of a place, from what stands before it in its line; in front of a character outside
ASCII it is counted in bytes. -/
def columnBehind (front rest : Text) : Nat :=
  if rest.head?.any fun c => 0x80 ≤ c.toNat then Utf8.size front else front.length

/-- What is said about a fault of a document: the line where it is with carets below its part, and
the message. A place behind the end counts as one behind the last character. -/
def Fault.report (fault : Fault) (source : Text) : Text :=
  let span := fault.span source
  let place := position source span.start
  let before := source.take (min place (source.length - 1))
  let front := (before.reverse.takeWhile (· ≠ '\n')).reverse
  let column := columnBehind front span.start + (place - before.length)
  let number := Text.ofNat (before.count '\n' + 1)
  let content := (source.drop (before.length - front.length)).takeWhile (· ≠ '\n')
  let gutter := List.replicate (number.length + 1) ' '
  let width := Utf8.size span.start - Utf8.size span.stop
  let carets := max 1 (min width (Utf8.size content - column))
  "TOML parse error at line " ++ number ++ ", column " ++ Text.ofNat (column + 1) ++ "\n" ++
    gutter ++ "|\n" ++ number ++ " | " ++ content ++ "\n" ++ gutter ++ "|" ++
    List.replicate (column + 1) ' ' ++ List.replicate carets '^' ++ "\n" ++ fault.message ++ "\n"

end Toml

end SampleHarvest
