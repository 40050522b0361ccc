import ModalHighlight.Proofs.Scan.Conformity
import ModalHighlight.Proofs.Scan.Plain
import ModalHighlight.Proofs.Token.Alone

/-! # Where tokens come from

Tokens are made from pieces after the scan, so what a token says about its text
has to be found where its pieces were written.  A token of a kind that no scope has is
one piece, and so it was written as it is.  In a short text this holds of every token that is neither plain nor in a scope of its own kind.
-/

namespace ModalHighlight

namespace Scan

variable {grammar : Grammar} {options : Options} {text : String}
variable {forced : Force → Span → Prop}

/-- Every piece was written into a mode of the kind that its innermost scope has. -/
theorem keeps_written (grounded : grammar.Grounded) :
    Keeps grammar options text forced (fun _ s => s.kind ≠ .plain) fun innermost p =>
      ∃ mode reach, Written grammar options text forced mode reach p ∧
        mode.rule.modeKind? = innermost.map Scope.kind where
  fitting _ opens _ _ := by
    obtain ⟨_, _, rule?, _⟩ := Grammar.firstMatch?_eq_some opens.found
    exact grounded.mode_kind (Array.mem_of_getElem? rule?) opens.isMode
  allowed {mode p reach limit} written _ _ _ := by
    refine ⟨mode, reach, written, ?_⟩
    rw [OpenMode.extent?, Rule.modeKind?]
    split <;> rfl

end Scan

namespace Highlighter

variable {highlighter : Highlighter} {text : String} {token : Token} {p : Piece}

theorem exists_written_piece (lawful : highlighter.language.grammar.Lawful)
    (grounded : highlighter.language.grammar.Grounded)
    (member : p ∈ (highlighter.highlight text).outline.pieces) :
    ∃ mode reach, Scan.Written highlighter.language.grammar highlighter.options text
        (highlighter.highlight text).Forced mode reach p ∧
      mode.rule.modeKind? =
        Scope.innermost? (highlighter.highlight text).outline.scopes p.span.start := by
  have tiles := (highlighter.tiles_highlight lawful text).1
  have conforms := highlighter.conforms_highlight lawful text (Scan.keeps_written grounded)
  have proper := (tiles.pieces.of_mem (List.mem_map_of_mem member)).2.1
  obtain ⟨mode, reach, written, around⟩ := conforms.of_mem_pieces tiles p member p.span.start
    (Span.contains_eq_true.2 ⟨Nat.le_refl _, proper⟩)
  rw [Option.or_none] at around
  exact ⟨mode, reach, written, around⟩

/-- A token of a kind that no scope has is a piece as it was written. -/
theorem exists_written_of_absent (lawful : highlighter.language.grammar.Lawful)
    (accountable : highlighter.language.grammar.Accountable)
    (grounded : highlighter.language.grammar.Grounded)
    (member : token ∈ (highlighter.highlight text).tokens.toList) (other : token.kind ≠ .plain)
    (absent : ∀ s ∈ (highlighter.highlight text).scopes, s.kind ≠ token.kind) :
    ∃ mode reach, Scan.Written highlighter.language.grammar highlighter.options text
      (highlighter.highlight text).Forced mode reach ⟨token.kind, token.span⟩ := by
  have tiles := (highlighter.tiles_highlight lawful text).1
  have runs := highlighter.runs_highlight lawful accountable grounded text
  obtain ⟨p, inPieces, kind, span⟩ :=
    (tiles.mem_tokens_iff runs absent other).1 ⟨token, member, rfl, rfl⟩
  obtain ⟨mode, reach, written, _⟩ := exists_written_piece lawful grounded inPieces
  rw [← kind, ← span]
  exact ⟨mode, reach, written⟩

/-- In a short text, a token that is not plain and lies in no scope of its
kind is a piece as it was written, into a mode of some other kind. -/
theorem exists_written (lawful : highlighter.language.grammar.Lawful)
    (accountable : highlighter.language.grammar.Accountable)
    (grounded : highlighter.language.grammar.Grounded) (short : Scan.Numbering.Short text)
    (member : token ∈ (highlighter.highlight text).tokens.toList) (other : token.kind ≠ .plain)
    (alone : ∀ s ∈ (highlighter.highlight text).scopes, s.kind = token.kind →
      ¬s.span.encloses token.span = true) :
    ∃ mode reach, Scan.Written highlighter.language.grammar highlighter.options text
        (highlighter.highlight text).Forced mode reach ⟨token.kind, token.span⟩ ∧
      mode.rule.modeKind? ≠ some token.kind := by
  have tiles := (highlighter.tiles_highlight lawful text).1
  have runs := highlighter.runs_highlight lawful accountable grounded text
  have kinds := (highlighter.conforms_highlight lawful text
    (Scan.keeps_written grounded)).of_mem_scopes tiles
  obtain ⟨p, inPieces, kind, span, apart⟩ :=
    tiles.exists_piece_of_alone runs short kinds member other alone
  obtain ⟨mode, reach, written, around⟩ := exists_written_piece lawful grounded inPieces
  refine ⟨mode, reach, ?_, fun same => apart ?_⟩
  · rw [← kind, ← span]
    exact written
  · rw [Piece.IsContent, ← around, same, kind]
    rfl

end Highlighter

end ModalHighlight
