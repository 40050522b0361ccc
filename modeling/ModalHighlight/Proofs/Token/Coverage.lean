import ModalHighlight.Proofs.Outline.Slices
import ModalHighlight.Proofs.Scan.Coalescing

/-! # Nothing is lost in tokens

The tokens of a text follow one another from its start to its end, each with
the slice that its span cuts out, so that together they are the text.  This
holds of a finished scan and of one that is stopped at any step, for the part
of the text in front of it.  Everything that a scan ever cuts out of its text
reaches from one to another of the offsets named here as its cuts, and these
all are borders of characters.
-/

namespace ModalHighlight

open Text (Border)

/-! ## Cover -/

/-- Tokens that cover a text up to an offset without gaps or overlaps. -/
structure Token.Covers (text : String) (stop : Nat) (tokens : List Token) : Prop where
  nonempty : ∀ token ∈ tokens, token.span.start < token.span.stop ∧ token.text ≠ ""
  first : ∀ token ∈ tokens.head?, token.span.start = 0
  next : tokens.IsChain fun left right => right.span.start = left.span.stop
  last : ∀ token ∈ tokens.getLast?, token.span.stop = stop
  none : tokens = [] ↔ stop = 0
  borders : ∀ token ∈ tokens, (⟨token.span.start⟩ : String.Pos.Raw).IsValid text ∧
    (⟨token.span.stop⟩ : String.Pos.Raw).IsValid text
  slices : ∀ token ∈ tokens, token.span.slice? text = some token.text

namespace Token

variable {text : String} {stop : Nat} {tokens : List Token} {outline : Outline}

theorem covers_of_tiles (tiles : Span.Tiles (Border text) 0 stop (tokens.map span))
    (texts : ∀ token ∈ tokens, token.text = (token.span.slice? text).getD "") :
    Covers text stop tokens where
  nonempty token member := by
    obtain ⟨_, nonempty, _, _, right⟩ := tiles.of_mem (List.mem_map_of_mem member)
    refine ⟨nonempty, ?_⟩
    obtain ⟨slice, cut, bytes⟩ := tiles.slice?_of_mem (List.mem_map_of_mem member)
    rw [texts token member, cut]
    -- An empty text would be the slice of an empty span.
    intro empty
    have size := congrArg List.length bytes
    have within := right.le_utf8ByteSize
    simp only [Option.getD_some] at empty
    simp only [empty, Text.length_bytes, List.length_take, List.length_drop,
      String.utf8ByteSize_empty] at size
    omega
  first token member := by
    refine tiles.head?_start token.span ?_
    rw [List.head?_map, Option.mem_def.1 member]
    rfl
  next := by
    have chain := tiles.isChain
    rwa [List.isChain_map] at chain
  last token member := by
    refine tiles.getLast?_stop token.span ?_
    rw [List.getLast?_map, Option.mem_def.1 member]
    rfl
  none := by
    have empty := tiles.eq_nil_iff
    rw [List.map_eq_nil_iff] at empty
    exact empty.trans eq_comm
  borders token member := (tiles.of_mem (List.mem_map_of_mem member)).2.2.2
  slices token member := by
    obtain ⟨slice, cut, _⟩ := tiles.slice?_of_mem (List.mem_map_of_mem member)
    rw [texts token member, cut]
    rfl

/-- Tokens that an outline of the text in front of an offset makes up cover that text. -/
theorem Runs.covers {exact : Prop} (runs : Runs exact text outline.segments tokens)
    (tiles : outline.Tiles (Border text) 0 stop) : Covers text stop tokens :=
  covers_of_tiles (runs.tiles tiles) runs.slices

end Token

/-! ## Cuts -/

/-- The offsets between which a scan cuts slices out of its text: where it
stands, where modes are open, and where pieces start and stop. -/
def Scan.State.cuts (state : Scan.State) : List Nat :=
  state.offset :: (state.active :: state.outer).map OpenMode.start ++
    state.finish.outline.pieces.flatMap fun piece => [piece.span.start, piece.span.stop]

/-- A scan cuts its text between characters only. -/
theorem Scan.State.Sound.border_of_mem_cuts {grammar : Grammar} {options : Options}
    {text : String} {state : Scan.State} (sound : state.Sound grammar options text) :
    ∀ offset ∈ state.cuts, Border text offset := by
  intro offset member
  simp only [State.cuts, List.mem_append, List.mem_cons, List.mem_flatMap] at member
  rcases member with (rfl | opened) | ⟨piece, inPieces, ends⟩
  · exact sound.border
  · obtain ⟨mode, isOpen, rfl⟩ := List.mem_map.1 opened
    exact sound.layered.border_start mode isOpen
  · obtain ⟨_, _, _, left, right⟩ :=
      sound.outline.1.pieces.of_mem (List.mem_map_of_mem inPieces)
    rcases ends with rfl | rfl | none
    · exact left
    · exact right
    · cases none

/-! ## Highlighting -/

/-- Whatever the options, the tokens of a text cover it from its start to its
end and give it back.  After any number of steps they cover the part of the
text in front of the scan, and all that the scan may cut out of it are slices. -/
theorem highlight_lossless (options : Scan.Options) (text : String) :
    let highlighter := Highlighter.default.withOptions options
    let result := highlighter.highlight text
    Token.Covers text text.utf8ByteSize result.tokens.toList ∧
      result.reconstruct = text ∧
      ∀ steps : Nat,
        let start := Scan.State.start highlighter.language.grammar (Text.bytes text)
        let state := Scan.advance highlighter.language.grammar highlighter.options steps start
        let numbering := Scan.Numbering.along highlighter.language.grammar highlighter.options
          steps start .start
        Token.Covers text state.offset (numbering.tokens.reverse.map (Token.ofPiece text)) ∧
          ∀ left ∈ state.cuts, ∀ right ∈ state.cuts, left ≤ right →
            ((⟨left, right⟩ : Span).slice? text).isSome := by
  intro highlighter result
  have tiles := (Highlighter.tiles_withOptions options text).1
  have runs := Highlighter.runs_withOptions options text
  refine ⟨runs.covers tiles, ?_, ?_⟩
  -- The tokens carry their slices, and slices in a row make up the text.
  · have joined := (runs.tiles tiles).join_slices
    rw [List.map_map] at joined
    rw [Highlighted.reconstruct, List.map_congr_left runs.slices]
    exact joined
  -- Stopped anywhere, a scan is sound and its numbering goes along with it, and this is
  -- all that the end relied on.
  · intro steps start state numbering
    have made : Scan.Numbering.Made highlighter.language.grammar highlighter.options text state
        numbering := Scan.Numbering.Made.start.advance steps
    have sound := made.reachable.sound Flint.grammar_lawful
      (Nat.lt_of_lt_of_le (by decide) highlighter.leastMaxDepth_le)
    obtain ⟨along, _⟩ := made.along Flint.grammar_lawful Flint.grammar_accountable
      Flint.grammar_grounded highlighter.leastMaxDepth_le
    have found := along.covers.runs
    rw [← sound.segments_outline Flint.grammar_grounded] at found
    refine ⟨(Token.runs_ofPiece text found).covers sound.outline.1, ?_⟩
    intro left inLeft right inRight ordered
    obtain ⟨slice, cut, _⟩ := Text.slice?_of_border ordered
      (sound.border_of_mem_cuts left inLeft) (sound.border_of_mem_cuts right inRight)
    rw [cut]
    rfl

end ModalHighlight
