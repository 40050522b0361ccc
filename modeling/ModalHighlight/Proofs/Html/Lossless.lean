import ModalHighlight.Proofs.Html.Agreement
import ModalHighlight.Proofs.Scan.Coalescing

/-! # Rendering loses nothing and lets nothing through

What a text is rendered as reads back as nested elements whose characters are
the text.  Outside the tags there is nothing that a browser could take for a
tag, for the end of an attribute or for another entity than those written.  The
merge of tokens and scopes always comes to an end and writes the same.
-/

namespace ModalHighlight.Html

theorem read?_render (source : String) (outline : Outline) :
    read? (render source outline).toList = some (marksOf (parts source outline)) := by
  rw [render, toList_join_write]
  exact read?_write _

theorem join_write_congr {first second : List Part} (same : marksOf first = marksOf second) :
    String.join (first.map Part.write) = String.join (second.map Part.write) := by
  apply String.toList_inj.1
  rw [toList_join_write, toList_join_write, same]

/-- The merge of the tokens and scopes of an outline comes to an end, cuts only
slices out of the text, and writes what the outline is rendered as. -/
theorem merge?_eq_render {exact : Prop} {source : String} {outline : Outline}
    {tokens : List Token} (tiles : outline.Tiles (Text.Border source) 0 source.utf8ByteSize)
    (runs : Token.Runs exact source outline.segments tokens) :
    (merge? source tokens outline.scopes).map
      (fun merged => String.join (merged.map Part.write)) = some (render source outline) := by
  obtain ⟨merged, merges, sameMarks⟩ := writes_merge? tiles runs
  rw [merges]
  exact congrArg some (join_write_congr sameMarks)

/-- Whatever the options, the tokens and scopes of a text merge into what its
outline is rendered as.  That is a sequence of tags and characters of which the
characters are the text, nothing outside the tags is reserved but the ampersands
of the five entities, and the tags are balanced. -/
theorem render_lossless (options : Scan.Options) (text : String) :
    let result := (Highlighter.default.withOptions options).highlight text
    let output := render text result.outline
    (merge? text result.tokens.toList result.scopes).map
        (fun merged => String.join (merged.map Part.write)) = some output ∧
      ∃ marks,
        read? output.toList = some marks ∧
        output.toList = marks.flatMap Mark.write ∧
        String.ofList (charsOf marks) = text ∧
        (∀ raw ∈ ['<', '>', '"', '\''], raw ∉ outsideTags marks) ∧
        (∀ before after, outsideTags marks = before ++ '&' :: after →
          ∃ name ∈ entities.map Prod.snd, name.toList <+: '&' :: after) ∧
        (∀ before, before <+: marks →
          before.countP Mark.closes ≤ before.countP Mark.opens) ∧
        marks.countP Mark.closes = marks.countP Mark.opens := by
  intro result output
  have tiles := (Highlighter.tiles_withOptions options text).1
  have reads := read?_render text result.outline
  -- Nothing is open in front of the text, and nothing stays open behind it.
  have counted : openAfter? 0 (marksOf (parts text result.outline)) = some 0 :=
    openAfter?_partsOnto text .plain result.outline [] 0
  obtain ⟨bounded, total⟩ := balanced_of_openAfter? counted
  have runs := Highlighter.runs_withOptions options text
  refine ⟨merge?_eq_render tiles runs, marksOf (parts text result.outline), reads,
    read?_eq_some_iff.1 reads, ?_, not_mem_outsideTags _, fun _ _ => entity_of_mem_outsideTags,
    ?_, ?_⟩
  · rw [charsOf_parts tiles]
    exact String.ofList_toList
  · intro before first
    have := bounded before first
    rwa [Nat.zero_add] at this
  · rwa [Nat.zero_add, Nat.zero_add] at total

end ModalHighlight.Html
