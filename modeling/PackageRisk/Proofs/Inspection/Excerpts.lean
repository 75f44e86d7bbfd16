import PackageRisk.Inspection.Catalog
import PackageRisk.Proofs.Pattern.Lines
import PackageRisk.Proofs.Text.Places
import PackageRisk.Proofs.Text.Words

/-!
# Surroundings of an occurrence

The surroundings of a range can always be cut out by bytes: both searches find a place, three bytes
further out than asked for at most, and what lies between the two places are the characters kept on
either side and the range itself. Collapsed, they still have every word of the range in order. All
that a search finds in a text are ranges of the text.
-/

namespace PackageRisk

namespace Cursor

variable {content before after : String} {place : content.Pos}

theorem ofPlace_eq (splits : place.Splits before after) :
    ofPlace place = ⟨before.toList.reverse, after.toList⟩ := by
  obtain ⟨behind, ahead⟩ := place.splits.eq splits
  rw [ofPlace, behind, ahead]

end Cursor

namespace Occurrence

variable {content before inside after : String} {start stop : content.Pos}

theorem between_eq (begins : start.Splits before (inside ++ after))
    (ends : stop.Splits (before ++ inside) after) :
    between start stop =
      ⟨⟨before.toList.reverse, inside.toList ++ after.toList⟩,
        ⟨inside.toList.reverse ++ before.toList.reverse, after.toList⟩⟩ := by
  rw [between, Cursor.ofPlace_eq begins, Cursor.ofPlace_eq ends, String.toList_append,
    String.toList_append, List.reverse_append]

theorem surroundings_between (begins : start.Splits before (inside ++ after))
    (ends : stop.Splits (before ++ inside) after) :
    (between start stop).surroundings =
      (takeBytes contextRadius before.toList.reverse).reverse ++ inside.toList ++
        takeBytes contextRadius after.toList := by
  rw [between_eq begins ends, surroundings, text]
  simp

/-- What lies between two places of a text. -/
theorem extract_eq (begins : start.Splits before (inside ++ after))
    (ends : stop.Splits (before ++ inside) after) : content.extract start stop = inside := by
  obtain ⟨ordered, copied⟩ := String.copy_slice_eq_iff_splits.mpr ⟨before, after, begins, ends⟩
  rw [String.extract_eq_copy_slice start stop ordered, copied]

/-- A range parts a text in three. -/
theorem exists_splits (ordered : start ≤ stop) :
    ∃ before inside after : String,
      start.Splits before (inside ++ after) ∧ stop.Splits (before ++ inside) after := by
  obtain ⟨inside, ahead, rest⟩ := (start.splits.le_iff_exists_eq_append stop.splits).mp ordered
  refine ⟨_, inside, _, ?_, ahead ▸ stop.splits⟩
  rw [← rest]
  exact start.splits

/-- The surroundings of a range are what lies between the places that the two searches find. -/
theorem exists_places (start stop : content.Pos) (ordered : start ≤ stop) :
    ∃ first last : content.Pos,
      Text.placeBelow? content (start.offset.byteIdx - contextRadius) = some first ∧
      Text.placeAbove? content (min (stop.offset.byteIdx + contextRadius) content.utf8ByteSize) =
        some last ∧
      first ≤ start ∧ stop ≤ last ∧
      start.offset.byteIdx - first.offset.byteIdx ≤ contextRadius + 3 ∧
      last.offset.byteIdx - stop.offset.byteIdx ≤ contextRadius + 3 ∧
      (content.extract first last).toList = (between start stop).surroundings := by
  obtain ⟨before, inside, after, begins, ends⟩ := exists_splits ordered
  obtain ⟨front, first, cutBefore, begins', below⟩ := Text.placeBelow?_sub begins contextRadius
  obtain ⟨back, last, cutAfter, ends', above⟩ := Text.placeAbove?_add ends contextRadius
  have nearBefore := utf8Len_takeBytes_le contextRadius before.toList.reverse
  have nearAfter := utf8Len_takeBytes_le contextRadius after.toList
  have kept := surroundings_between begins ends
  generalize takeBytes contextRadius before.toList.reverse = behind at *
  generalize takeBytes contextRadius after.toList = beyond at *
  refine ⟨first, last, below, above, ?_, ?_, ?_, ?_, ?_⟩
  · exact (begins'.le_iff_exists_eq_append begins).mpr ⟨_, cutBefore, rfl⟩
  · exact (ends.le_iff_exists_eq_append ends').mpr ⟨_, rfl, cutAfter⟩
  · rw [Text.byteIdx_of_splits begins, Text.byteIdx_of_splits begins', cutBefore,
      String.utf8ByteSize_append, String.utf8ByteSize_ofList, String.utf8Len_reverse]
    omega
  · rw [Text.byteIdx_of_splits ends, Text.byteIdx_of_splits ends', String.utf8ByteSize_append,
      String.utf8ByteSize_ofList]
    omega
  · have inner : first.Splits front
        (String.ofList behind.reverse ++ inside ++ String.ofList beyond ++ back) := by
      rw [cutAfter] at begins'
      simpa only [String.append_assoc] using begins'
    have outer : last.Splits
        (front ++ (String.ofList behind.reverse ++ inside ++ String.ofList beyond)) back := by
      rw [cutBefore] at ends'
      simpa only [String.append_assoc] using ends'
    rw [extract_eq inner outer, kept]
    simp only [String.toList_append, String.toList_ofList]

end Occurrence

/-! ## Ranges that a search finds -/

namespace Cursor

/-- Going forward through a text leads from place to place. -/
theorem exists_ofPlace_forward (content : String) (m n : Nat) :
    ∃ start stop : content.Pos, start ≤ stop ∧
      (Cursor.start content.toList).forward m = ofPlace start ∧
      (Cursor.start content.toList).forward (m + n) = ofPlace stop := by
  have place (k : Nat) : ∃ p : content.Pos,
      p.Splits (String.ofList (content.toList.take k)) (String.ofList (content.toList.drop k)) := by
    have whole : content =
        String.ofList (content.toList.take k) ++ String.ofList (content.toList.drop k) := by
      rw [← String.ofList_append, List.take_append_drop, String.ofList_toList]
    exact ⟨String.Pos.ofEqAppend whole, String.Pos.splits_ofEqAppend whole⟩
  obtain ⟨start, begins⟩ := place m
  obtain ⟨stop, ends⟩ := place (m + n)
  refine ⟨start, stop, ?_, ?_, ?_⟩
  · refine (begins.le_iff_exists_eq_append ends).mpr
      ⟨String.ofList ((content.toList.drop m).take n), ?_, ?_⟩
    · rw [← String.ofList_append, List.take_add]
    · rw [← String.ofList_append, ← List.drop_drop, List.take_append_drop]
  · rw [ofPlace_eq begins]
    simp [Cursor.start, forward]
  · rw [ofPlace_eq ends]
    simp [Cursor.start, forward]

end Cursor

namespace Search

/-- What is found first in a text is a range of the text. -/
theorem exists_between_of_first? {s : Search} {content : String} {o : Occurrence}
    (found : s.first? content.toList = some o) :
    ∃ start stop : content.Pos, start ≤ stop ∧ o = .between start stop := by
  obtain ⟨m, -, start, here⟩ := exists_forward_of_findFrom found
  obtain ⟨n, -, -, stop⟩ := Pattern.matchAt?_takes here
  rw [start, Cursor.forward_forward] at stop
  obtain ⟨first, last, ordered, begins, ends⟩ := Cursor.exists_ofPlace_forward content m n
  refine ⟨first, last, ordered, ?_⟩
  rw [Occurrence.between, ← begins, ← ends]
  exact congrArg₂ Occurrence.mk start stop

end Search

namespace Occurrence

variable {content : String} {start stop : content.Pos}

/-- Cutting by bytes gives the snippet of the range. -/
theorem excerpt?_eq (ordered : start ≤ stop) :
    excerpt? content start.offset.byteIdx stop.offset.byteIdx =
      some (between start stop).snippet := by
  obtain ⟨first, last, below, above, before, after, -, -, kept⟩ :=
    exists_places start stop ordered
  have inOrder : first ≤ last := Nat.le_trans before (Nat.le_trans ordered after)
  rw [excerpt?, below, above, snippet, ← kept]
  exact if_pos inOrder

/-- The snippet of a range has the collapsed form of the range within it. -/
theorem collapse_extract_infix (ordered : start ≤ stop) :
    Text.collapse (content.extract start stop).toList <:+:
      (between start stop).snippet.toList := by
  obtain ⟨before, inside, after, begins, ends⟩ := exists_splits ordered
  rw [extract_eq begins ends, snippet, String.toList_ofList, surroundings_between begins ends]
  exact Text.collapse_infix_append _ _ _

open Text in
/-- Around any range the searches for places between characters end within the text, each within
forty-three bytes of the range, and the excerpt is what lies between the two places with its blanks
collapsed. It has the words of the range in order. The context that a rule gives is the excerpt
around a range of the text. -/
theorem excerpt_covers (content : String) :
    (∀ start stop : content.Pos, start ≤ stop →
      ∃ first last : content.Pos,
        placeBelow? content (start.offset.byteIdx - 40) = some first ∧
        placeAbove? content (min (stop.offset.byteIdx + 40) content.utf8ByteSize) = some last ∧
        first ≤ start ∧ stop ≤ last ∧
        start.offset.byteIdx - first.offset.byteIdx ≤ 43 ∧
        last.offset.byteIdx - stop.offset.byteIdx ≤ 43 ∧
        ∃ snippet, excerpt? content start.offset.byteIdx stop.offset.byteIdx = some snippet ∧
          Collapsed (content.extract first last).toList snippet.toList ∧
          ∀ words, Spaced words (content.extract start stop).toList →
            join [' '] words <:+: snippet.toList) ∧
    ∀ (rule : Rule) (found : RuleMatch), rule.fire? content.toList = some found →
      ∃ start stop : content.Pos, start ≤ stop ∧
        rule.search.first? content.toList = some (between start stop) ∧
        excerpt? content start.offset.byteIdx stop.offset.byteIdx = some found.context := by
  constructor
  · intro start stop ordered
    obtain ⟨first, last, below, above, before, after, near, near', kept⟩ :=
      exists_places start stop ordered
    refine ⟨first, last, below, above, before, after, near, near', (between start stop).snippet,
      excerpt?_eq ordered, ?_, fun words spaced => ?_⟩
    · rw [snippet, String.toList_ofList, kept]
      exact collapsed_collapse _
    · have inside := collapse_extract_infix ordered
      rwa [collapse, spaced.words_eq] at inside
  · intro rule found fires
    obtain ⟨o, first, rfl⟩ := Option.map_eq_some_iff.mp fires
    obtain ⟨start, stop, ordered, rfl⟩ := Search.exists_between_of_first? first
    exact ⟨start, stop, ordered, first, excerpt?_eq ordered⟩

/-- A call behind letters of two bytes and before ideographs of three. -/
def foreignCall : String :=
  String.ofList (List.replicate 25 'é' ++ ['(']) ++
    (String.ofList ['e', 'v', 'a', 'l', '('] ++ String.ofList (List.replicate 20 '漢'))

/-- Forty bytes before the call and forty behind it are both inside a character. -/
theorem foreignCall_covers :
    ∃ start stop : foreignCall.Pos, start ≤ stop ∧
      start.offset.byteIdx = 51 ∧ stop.offset.byteIdx = 56 ∧
      (∃ first last : foreignCall.Pos,
        Text.placeBelow? foreignCall 11 = some first ∧
        Text.placeAbove? foreignCall 96 = some last ∧
        first ≤ start ∧ stop ≤ last ∧
        51 - first.offset.byteIdx ≤ 43 ∧ last.offset.byteIdx - 56 ≤ 43 ∧
        ∃ snippet, excerpt? foreignCall 51 56 = some snippet ∧
          Text.Collapsed (foreignCall.extract first last).toList snippet.toList ∧
          ['e', 'v', 'a', 'l', '('] <:+: snippet.toList) ∧
      ∃ rule ∈ Catalog.builtin, ∃ found, rule.fire? foreignCall.toList = some found ∧
        ∃ start stop : foreignCall.Pos, start ≤ stop ∧
          rule.search.first? foreignCall.toList = some (between start stop) ∧
          excerpt? foreignCall start.offset.byteIdx stop.offset.byteIdx = some found.context := by
  obtain ⟨start, begins⟩ : ∃ p : foreignCall.Pos, p.Splits _ (_ ++ _) :=
    ⟨_, String.Pos.splits_ofEqAppend rfl⟩
  obtain ⟨stop, ends⟩ : ∃ p : foreignCall.Pos, p.Splits (_ ++ _) _ :=
    ⟨_, String.Pos.splits_ofEqAppend String.append_assoc.symm⟩
  have ordered := (begins.le_iff_exists_eq_append ends).mpr ⟨_, rfl, rfl⟩
  have here := Text.byteIdx_of_splits begins
  have there := Text.byteIdx_of_splits ends
  have whole := congrArg String.utf8ByteSize ends.eq_append
  simp only [String.utf8ByteSize_append, String.utf8ByteSize_ofList] at here there whole
  replace here : _ = 51 := here
  replace there : _ = 56 := there
  replace whole : _ = 116 := whole
  obtain ⟨covers, contexts⟩ := excerpt_covers foreignCall
  obtain ⟨first, last, below, above, before, after, near, near', snippet, cut, collapsed, words⟩ :=
    covers start stop ordered
  rw [here] at below near cut
  rw [there] at above near' cut
  rw [whole] at above
  have inside := words [['e', 'v', 'a', 'l', '(']] (by
    rw [extract_eq begins ends, String.toList_ofList]
    exact Text.spaced_iff.mpr (by decide))
  have fires : (Catalog.codeExecution[0].fire? foreignCall.toList).isSome = true := by
    rw [ends.eq_append, String.toList_append, String.toList_append]
    simp only [String.toList_ofList]
    decide +kernel
  obtain ⟨found, fires⟩ := Option.isSome_iff_exists.mp fires
  have builtin : Catalog.codeExecution[0] ∈ Catalog.builtin := List.mem_cons_self
  exact ⟨start, stop, ordered, here, there, ⟨first, last, below, above, before, after, near, near',
    snippet, cut, collapsed, inside⟩, _, builtin, found, fires, contexts _ _ fires⟩

end Occurrence

end PackageRisk
