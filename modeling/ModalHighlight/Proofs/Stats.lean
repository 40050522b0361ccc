import Mathlib.Algebra.GroupWithZero.Nat
import Mathlib.Algebra.Order.BigOperators.Group.List
import Mathlib.Algebra.Order.Group.Nat
import ModalHighlight.Proofs.Token.Coverage
import ModalHighlight.Stats

/-! # Figures that add up

The figures of a text are gathered kind by kind, one pass over the tokens for each.  Every token
has one kind, and the list of kinds names each kind once, so that whatever is summed up kind by
kind comes to what it is over all tokens; and tokens that tile a text have all of its bytes
between them.
-/

namespace ModalHighlight

/-! ## Sums -/

/-- Spans in a row are as long together as the range is that they reach over. -/
theorem Span.Tiles.sum_length {border : Nat → Prop} {start stop : Nat} {spans : List Span}
    (tiles : Tiles border start stop spans) : start + (spans.map Span.length).sum = stop := by
  induction spans generalizing start with
  | nil => exact tiles.2
  | cons s rest ih =>
    obtain ⟨_, begins, nonempty, later⟩ := tiles
    have behind := ih later
    rw [List.map_cons, List.sum_cons, Span.length]
    omega

namespace Kind

/-- Kinds are listed in the order in which they are declared. -/
theorem pairwise_all : all.Pairwise fun left right => left.ctorIdx < right.ctorIdx := by decide

/-- What counts for one kind only counts once. -/
theorem sum_all_ite (kind : Kind) (amount : Nat) :
    (all.map fun other => if kind = other then amount else 0).sum = amount := by
  cases kind <;> simp [all]

/-- What is summed up kind by kind comes to what it is over all tokens. -/
theorem sum_all_filter (weight : Token → Nat) (tokens : List Token) :
    (all.map fun kind => ((tokens.filter (·.kind == kind)).map weight).sum).sum =
      (tokens.map weight).sum := by
  induction tokens with
  | nil => simp
  | cons token rest ih =>
    have apart : ∀ kind : Kind, (((token :: rest).filter (·.kind == kind)).map weight).sum =
        (if token.kind = kind then weight token else 0) +
          ((rest.filter (·.kind == kind)).map weight).sum := by
      intro kind
      rw [List.filter_cons]
      by_cases own : token.kind = kind
      · simp [own]
      · simp [own]
    simp only [apart, List.sum_map_add, sum_all_ite, ih, List.map_cons, List.sum_cons]

end Kind

/-! ## Rows -/

namespace KindStats

variable {tokens : List Token} {kind : Kind}

theorem tokens_ofTokens (tokens : List Token) (kind : Kind) :
    (ofTokens tokens kind).tokens = (tokens.filter (·.kind == kind)).length := rfl

theorem bytes_ofTokens (tokens : List Token) (kind : Kind) :
    (ofTokens tokens kind).bytes =
      ((tokens.filter (·.kind == kind)).map (·.span.length)).sum := by
  show (tokens.filter (·.kind == kind)).foldr (fun token total => token.span.length + total) 0 = _
  rw [List.sum, List.foldr_map]

/-- A kind has a row that is not empty if and only if there is a token of the kind. -/
theorem tokens_pos_iff :
    0 < (ofTokens tokens kind).tokens ↔ ∃ token ∈ tokens, token.kind = kind := by
  rw [tokens_ofTokens, List.length_pos_iff_exists_mem]
  simp

/-- A row without tokens is without bytes. -/
theorem bytes_eq_zero (none : ¬ 0 < (ofTokens tokens kind).tokens) :
    (ofTokens tokens kind).bytes = 0 := by
  rw [tokens_ofTokens, Nat.pos_iff_ne_zero, Decidable.not_not, List.length_eq_zero_iff] at none
  rw [bytes_ofTokens, none, List.map_nil, List.sum_nil]

end KindStats

namespace Stats

/-- Rows that add nothing to a sum may be left out of it. -/
theorem sum_filter_rows {rows : List KindStats} {figure : KindStats → Nat}
    (nothing : ∀ row ∈ rows, ¬ 0 < row.tokens → figure row = 0) :
    ((rows.filter fun row => 0 < row.tokens).map figure).sum = (rows.map figure).sum := by
  induction rows with
  | nil => rfl
  | cons row rest ih =>
    have others := ih fun other member => nothing other (List.mem_cons_of_mem row member)
    by_cases full : 0 < row.tokens
    · simp [full, others]
    · simp [full, others, nothing row List.mem_cons_self full]

variable (text : String) (result : Highlighted)

theorem sum_tokens_kinds :
    ((ofHighlighted text result).kinds.map KindStats.tokens).sum = result.tokens.size := by
  have ones : ∀ tokens : List Token, (tokens.map fun _ => 1).sum = tokens.length := by simp
  have once := Kind.sum_all_filter (fun _ => 1) result.tokens.toList
  simp only [ones] at once
  rw [ofHighlighted, sum_filter_rows fun row _ none => Nat.eq_zero_of_not_pos none, List.map_map]
  exact once

theorem sum_bytes_kinds :
    ((ofHighlighted text result).kinds.map KindStats.bytes).sum =
      (result.tokens.toList.map (·.span.length)).sum := by
  rw [ofHighlighted, sum_filter_rows, List.map_map, ← Kind.sum_all_filter]
  · exact congrArg List.sum (List.map_congr_left fun kind _ => KindStats.bytes_ofTokens _ kind)
  · intro row member none
    obtain ⟨kind, _, rfl⟩ := List.mem_map.1 member
    exact KindStats.bytes_eq_zero none

theorem map_kind_kinds :
    (ofHighlighted text result).kinds.map KindStats.kind =
      Kind.all.filter fun kind => 0 < (KindStats.ofTokens result.tokens.toList kind).tokens := by
  rw [ofHighlighted, List.filter_map, List.map_map]
  exact List.map_id _

variable {text result}

/-- A row is not empty, and it is that of its kind. -/
theorem row_of_mem {row : KindStats} (member : row ∈ (ofHighlighted text result).kinds) :
    0 < row.tokens ∧ row = KindStats.ofTokens result.tokens.toList row.kind := by
  obtain ⟨inTable, full⟩ := List.mem_filter.1 member
  obtain ⟨kind, _, rfl⟩ := List.mem_map.1 inTable
  exact ⟨of_decide_eq_true full, rfl⟩

/-- The rows are those of all kinds in order, some of them left out. -/
theorem pairwise_kinds (text : String) (result : Highlighted) :
    (ofHighlighted text result).kinds.Pairwise fun above below =>
      above.kind.ctorIdx < below.kind.ctorIdx := by
  have ordered := Kind.pairwise_all.filter fun kind =>
    decide (0 < (KindStats.ofTokens result.tokens.toList kind).tokens)
  rw [← map_kind_kinds text result, List.pairwise_map] at ordered
  exact ordered

theorem mem_map_kind_kinds {kind : Kind} :
    kind ∈ (ofHighlighted text result).kinds.map KindStats.kind ↔
      ∃ token ∈ result.tokens, token.kind = kind := by
  rw [map_kind_kinds, List.mem_filter, decide_eq_true_eq, KindStats.tokens_pos_iff]
  simp [Kind.mem_all]

/-- Where no token is empty, no row is without bytes. -/
theorem bytes_pos_of_mem (nonempty : ∀ token ∈ result.tokens.toList, 0 < token.span.length)
    {row : KindStats} (member : row ∈ (ofHighlighted text result).kinds) : 0 < row.bytes := by
  obtain ⟨full, same⟩ := row_of_mem member
  rw [same] at full
  obtain ⟨token, inTokens, own⟩ := KindStats.tokens_pos_iff.1 full
  have ofKind : token ∈ result.tokens.toList.filter (·.kind == row.kind) :=
    List.mem_filter.2 ⟨inTokens, by simp [own]⟩
  have counted : token.span.length ≤ row.bytes := by
    rw [same, KindStats.bytes_ofTokens]
    apply List.le_sum_of_mem
    exact List.mem_map_of_mem ofKind
  exact Nat.lt_of_lt_of_le (nonempty token inTokens) counted

end Stats

/-! ## Highlighting -/

/-- With any options, the figures of a text have one row for each kind that occurs, in the order
of the kinds, and no other.  Each row holds the tokens of its kind and their bytes, and together
the rows hold all tokens and every byte of the text. -/
theorem stats_account_for_text (options : Scan.Options) (text : String) :
    let result := (Highlighter.default.withOptions options).highlight text
    let stats := Stats.ofHighlighted text result
    (stats.kinds.Pairwise fun above below => above.kind.ctorIdx < below.kind.ctorIdx) ∧
      (∀ row ∈ stats.kinds, 0 < row.tokens ∧ 0 < row.bytes) ∧
      (∀ kind, kind ∈ stats.kinds.map KindStats.kind ↔
        ∃ token ∈ result.tokens, token.kind = kind) ∧
      (∀ row ∈ stats.kinds, row.tokens = (result.tokensOf row.kind).length ∧
        row.bytes = ((result.tokensOf row.kind).map (·.span.length)).sum) ∧
      (stats.kinds.map KindStats.tokens).sum = result.tokens.size ∧
      (stats.kinds.map KindStats.bytes).sum = text.utf8ByteSize ∧
      stats.bytes = text.utf8ByteSize := by
  intro result stats
  have tiles : Span.Tiles (Text.Border text) 0 text.utf8ByteSize
      (result.tokens.toList.map Token.span) :=
    (Highlighter.runs_withOptions options text).tiles (Highlighter.tiles_withOptions options text).1
  have nonempty : ∀ token ∈ result.tokens.toList, 0 < token.span.length := by
    intro token member
    exact Nat.sub_pos_of_lt (tiles.of_mem (List.mem_map_of_mem member)).2.1
  refine ⟨Stats.pairwise_kinds text result, ?rows, fun kind => Stats.mem_map_kind_kinds, ?figures,
    Stats.sum_tokens_kinds text result, ?whole, rfl⟩
  case rows =>
    intro row member
    exact ⟨(Stats.row_of_mem member).1, Stats.bytes_pos_of_mem nonempty member⟩
  case figures =>
    intro row member
    rw [(Stats.row_of_mem member).2]
    exact ⟨rfl, KindStats.bytes_ofTokens _ _⟩
  case whole =>
    have length := tiles.sum_length
    rw [List.map_map, Nat.zero_add] at length
    rw [Stats.sum_bytes_kinds]
    exact length

end ModalHighlight
