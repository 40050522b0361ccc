import ModalHighlight.Proofs.Html.Marks
import ModalHighlight.Token

/-! # Rendering in one pass

A renderer that is given tokens and scopes, and not the outline that they come
from, merges the two lists: it goes through the tokens with a cursor, closes
the scopes that ended and opens those that begin, and takes each token in
stretches up to where a scope opens or closes next.  It fails where it would
not advance or where a stretch is no slice of the text.
-/

namespace ModalHighlight.Html

/-- What has become of the scopes at a cursor. -/
structure Frontier where
  /-- The scopes that are open, the innermost first. -/
  opened : List Scope
  /-- The scopes that are yet to open. -/
  waiting : List Scope

namespace Frontier

/-- The frontier behind the tags that are due at a cursor. -/
def settle (cursor : Nat) (frontier : Frontier) : Frontier where
  opened := (frontier.waiting.takeWhile (·.span.start ≤ cursor)).reverse ++
    frontier.opened.dropWhile (·.span.stop ≤ cursor)
  waiting := frontier.waiting.dropWhile (·.span.start ≤ cursor)

/-- The tags that are due at a cursor. -/
def settleParts (cursor : Nat) (frontier : Frontier) : List Part :=
  (frontier.opened.takeWhile (·.span.stop ≤ cursor)).map (fun _ => .closeTag) ++
    (frontier.waiting.takeWhile (·.span.start ≤ cursor)).map (fun s => .openTag s.kind)

/-- Where a stretch of a token ends that ends at `stop`. -/
def next (stop : Nat) (frontier : Frontier) : Nat :=
  let beforeOpening := match frontier.waiting with
    | [] => stop
    | s :: _ => min stop s.span.start
  match frontier.opened with
  | [] => beforeOpening
  | s :: _ => min beforeOpening s.span.stop

/-- Text of a kind needs no element of its own. -/
def isBare (frontier : Frontier) (kind : Kind) : Bool :=
  kind.isPlain || frontier.opened.head?.any (·.kind == kind)

/-- A stretch of text of a kind. -/
def stretchParts (frontier : Frontier) (kind : Kind) (text : String) : List Part :=
  if frontier.isBare kind then [.text text] else [.openTag kind, .text text, .closeTag]

end Frontier

/-- A token from the cursor on, and then what comes after it. -/
def stretch? (source : String) (kind : Kind) (stop : Nat)
    (andThen : Frontier → Option (List Part)) (cursor : Nat) (frontier : Frontier) :
    Option (List Part) :=
  if cursor < stop then
    let settled := frontier.settle cursor
    let next := settled.next stop
    if cursor < next then
      match (⟨cursor, next⟩ : Span).slice? source with
      | none => none
      | some text =>
        (stretch? source kind stop andThen next settled).map fun later =>
          frontier.settleParts cursor ++ settled.stretchParts kind text ++ later
    else none
  else andThen frontier
termination_by stop - cursor
decreasing_by exact Nat.sub_lt_sub_left (by assumption) (by assumption)

/-- Tokens, and then the tags of all that is still open. -/
def mergeFrom? (source : String) : List Token → Frontier → Option (List Part)
  | [], frontier => some (frontier.opened.map fun _ => .closeTag)
  | token :: rest, frontier =>
    stretch? source token.kind token.span.stop (mergeFrom? source rest) token.span.start frontier

/-- The parts that tokens and scopes of a text merge into. -/
def merge? (source : String) (tokens : List Token) (scopes : List Scope) : Option (List Part) :=
  mergeFrom? source tokens ⟨[], scopes⟩

/-! ## Frontiers -/

namespace Frontier

variable {opened waiting : List Scope} {s : Scope} {cursor stop : Nat} {frontier : Frontier}

/-- No scope opens or closes in front of an offset. -/
def QuietUntil (stop : Nat) (frontier : Frontier) : Prop :=
  (∀ s ∈ frontier.opened.head?, stop ≤ s.span.stop) ∧
    ∀ s ∈ frontier.waiting.head?, stop ≤ s.span.start

/-- Where the first of some scopes is not due, none of them is taken. -/
theorem takeWhile_eq_nil (due : Scope → Nat) {scopes : List Scope}
    (later : ∀ s ∈ scopes.head?, cursor < due s) :
    scopes.takeWhile (due · ≤ cursor) = [] ∧ scopes.dropWhile (due · ≤ cursor) = scopes := by
  cases scopes with
  | nil => exact ⟨rfl, rfl⟩
  | cons s rest =>
    have notYet : ¬ due s ≤ cursor := Nat.not_le.2 (later s rfl)
    simp [notYet]

/-- In front of the next change, nothing is due. -/
theorem settle_of_quiet (quiet : frontier.QuietUntil stop) (before : cursor < stop) :
    frontier.settle cursor = frontier ∧ frontier.settleParts cursor = [] := by
  obtain ⟨opened, waiting⟩ := frontier
  obtain ⟨noneClosed, allOpen⟩ := takeWhile_eq_nil (·.span.stop)
    fun s first => Nat.lt_of_lt_of_le before (quiet.1 s first)
  obtain ⟨noneOpened, allWaiting⟩ := takeWhile_eq_nil (·.span.start)
    fun s first => Nat.lt_of_lt_of_le before (quiet.2 s first)
  simp only [settle, settleParts, noneClosed, allOpen, noneOpened, allWaiting]
  exact ⟨rfl, rfl⟩

/-- A scope that has ended is closed first. -/
theorem settle_ended (ended : s.span.stop ≤ cursor) :
    settle cursor ⟨s :: opened, waiting⟩ = settle cursor ⟨opened, waiting⟩ ∧
      settleParts cursor ⟨s :: opened, waiting⟩ =
        .closeTag :: settleParts cursor ⟨opened, waiting⟩ := by
  simp [settle, settleParts, ended]

/-- A scope that begins is opened once none is left to close. -/
theorem settle_begun (begun : s.span.start ≤ cursor) (lasts : cursor < s.span.stop)
    (around : ∀ o ∈ opened.head?, cursor < o.span.stop) :
    settle cursor ⟨opened, s :: waiting⟩ = settle cursor ⟨s :: opened, waiting⟩ ∧
      settleParts cursor ⟨opened, s :: waiting⟩ =
        .openTag s.kind :: settleParts cursor ⟨s :: opened, waiting⟩ := by
  have lasting : ¬ s.span.stop ≤ cursor := Nat.not_le.2 lasts
  obtain ⟨noneClosed, allOpen⟩ := takeWhile_eq_nil (·.span.stop) around
  simp [settle, settleParts, begun, lasting, noneClosed, allOpen]

theorem next_le (stop : Nat) (frontier : Frontier) : frontier.next stop ≤ stop := by
  obtain ⟨opened, waiting⟩ := frontier
  cases opened <;> cases waiting <;> simp only [next] <;> omega

/-- Nothing changes within a stretch. -/
theorem quietUntil_next (stop : Nat) (frontier : Frontier) :
    frontier.QuietUntil (frontier.next stop) := by
  obtain ⟨opened, waiting⟩ := frontier
  constructor
  · intro s first
    cases opened with
    | nil => cases first
    | cons o opened =>
      obtain rfl : o = s := Option.some.inj first
      exact Nat.min_le_right _ _
  · intro s first
    cases waiting with
    | nil => cases first
    | cons w waiting =>
      obtain rfl : w = s := Option.some.inj first
      cases opened with
      | nil => exact Nat.min_le_right _ _
      | cons o opened => exact Nat.le_trans (Nat.min_le_left _ _) (Nat.min_le_right _ _)

theorem le_next (quiet : frontier.QuietUntil cursor) (within : cursor ≤ stop) :
    cursor ≤ frontier.next stop := by
  obtain ⟨opened, waiting⟩ := frontier
  obtain ⟨lasting, later⟩ := quiet
  cases opened with
  | nil =>
    cases waiting with
    | nil => exact within
    | cons w waiting => exact Nat.le_min.2 ⟨within, later w rfl⟩
  | cons o opened =>
    cases waiting with
    | nil => exact Nat.le_min.2 ⟨within, lasting o rfl⟩
    | cons w waiting => exact Nat.le_min.2 ⟨Nat.le_min.2 ⟨within, later w rfl⟩, lasting o rfl⟩

end Frontier

/-! ## Stretches -/

section Stretches

variable {source : String} {kind : Kind} {stop cursor : Nat}
variable {andThen : Frontier → Option (List Part)} {frontier : Frontier} {marks : List Mark}

/-- The result is there and is written as these marks. -/
def Writes (result : Option (List Part)) (marks : List Mark) : Prop :=
  ∃ parts, result = some parts ∧ marksOf parts = marks

theorem Writes.map_append {result : Option (List Part)} (writes : Writes result marks)
    (front : List Part) : Writes (result.map (front ++ ·)) (marksOf front ++ marks) := by
  obtain ⟨parts, rfl, rfl⟩ := writes
  exact ⟨front ++ parts, rfl, marksOf_append front parts⟩

theorem stretch?_done (behind : stop ≤ cursor) :
    stretch? source kind stop andThen cursor frontier = andThen frontier := by
  rw [stretch?, if_neg (Nat.not_lt.2 behind)]

theorem stretch?_tag {other : Frontier} {tag : Part} (inside : cursor < stop)
    (due : frontier.settle cursor = other.settle cursor ∧
      frontier.settleParts cursor = tag :: other.settleParts cursor) :
    stretch? source kind stop andThen cursor frontier =
      (stretch? source kind stop andThen cursor other).map ([tag] ++ ·) := by
  obtain ⟨same, tags⟩ := due
  rw [stretch?, stretch?.eq_def source kind stop andThen cursor other, if_pos inside,
    if_pos inside, same, tags]
  -- Both go on alike from the same frontier.
  simp only
  split
  next =>
    split
    next => rfl
    next => simp [Function.comp_def]
  next => rfl

theorem stretch?_next {text : String} (quiet : frontier.QuietUntil (frontier.next stop))
    (inside : cursor < frontier.next stop)
    (cut : (⟨cursor, frontier.next stop⟩ : Span).slice? source = some text) :
    stretch? source kind stop andThen cursor frontier =
      (stretch? source kind stop andThen (frontier.next stop) frontier).map
        (frontier.stretchParts kind text ++ ·) := by
  have before : cursor < stop := Nat.lt_of_lt_of_le inside (frontier.next_le stop)
  obtain ⟨settled, none⟩ := Frontier.settle_of_quiet quiet inside
  rw [stretch?, if_pos before, settled, none]
  simp only [if_pos inside, cut, List.nil_append]

end Stretches

end ModalHighlight.Html
