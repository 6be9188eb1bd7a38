import UiCodegen.Proofs.LineStarts

/-!
# Pieces of a text

Texts are split at an octet and the white space around the pieces is dropped.  A white-space
character begins with an octet that none goes on with, so those at the front and those at the end do
not overlap, and either end may be trimmed first (`trim_trimEnd`).  A character of several octets
has none of ASCII, so what stands in front of an octet that shows and what stands behind it are
trimmed apart (`trimStart_append_ink`, `trimEnd_append_ink`).  Hence trimming the whole text first
changes none of its trimmed pieces (`pieces_trim`).
-/

namespace UiCodegen

variable {s w : Bytes} {c sep : UInt8}

/-! ## Splitting -/

namespace Bytes

lemma splitOn_eq (sep : UInt8) (s : Bytes) : splitOn sep s = List.splitOn sep s := by
  induction s with
  | nil => rfl
  | cons b s ih =>
    rw [List.splitOn_cons_eq_if_modifyHead, ← ih, splitOn_cons]
    simp

lemma splitOn_of_notMem (h : sep ∉ s) : splitOn sep s = [s] := by
  rw [splitOn_eq, List.splitOn_eq_singleton h]

lemma splitOn_append (sep : UInt8) (front rest : Bytes) :
    splitOn sep (front ++ sep :: rest) = splitOn sep front ++ splitOn sep rest := by
  rw [splitOn_eq, splitOn_eq, splitOn_eq, List.splitOn_append_cons_self]

end Bytes

namespace Blank

/-! ## Trimming from both ends -/

/-- What is left by trimming neither begins nor ends with white space. -/
lemma tight_trim (s : Bytes) : Tight (trim s) where
  first := by
    obtain ⟨gap, hgap, -⟩ := exists_trimEnd (trimStart s)
    have hwhole : leading (trim s ++ gap) = 0 := by rw [trim, ← hgap, leading_trimStart]
    exact leading_of_append hwhole
  last := trailing_trimEnd (trimStart s)

lemma trim_trimStart (s : Bytes) : trim (trimStart s) = trim s := by
  rw [trim, trimStart_of_leading (leading_trimStart s), trim]

/-- White space that begins in a text and goes on behind it would have an octet in its middle that
begins white space. -/
lemma leading_append_space {m : Bytes} (hm : m ≠ []) (hzero : leading m = 0) (hw : IsSpace w) :
    leading (m ++ w) = 0 := by
  by_contra hne
  obtain ⟨v, rest, hv, heq⟩ := exists_of_leading hne
  rcases List.append_eq_append_iff.1 heq with ⟨more, rfl, hmore⟩ | ⟨more, rfl, -⟩
  · obtain ⟨a, tail, hcons, -, htail⟩ := hv.exists_cons
    obtain ⟨b, m, rfl⟩ := List.exists_cons_of_ne_nil hm
    cases more with
    | nil => exact hv.leading_ne_zero [] (by simpa using hzero)
    | cons c more =>
      have hc : c ∈ tail := by simp [← (List.cons.inj hcons).2]
      exact hw.leading_ne_zero [] (by rw [List.append_nil, hmore]; exact htail c hc _)
  · exact hv.leading_ne_zero more hzero

lemma IsSpace.trim_append (hw : IsSpace w) (m : Bytes) : trim (m ++ w) = trim m := by
  induction m using front_induction with
  | stop m hzero =>
    by_cases hm : m = []
    · have hnil : trimStart w = trimStart [] := by simpa using hw.trimStart_append []
      rw [hm, List.nil_append, trim, hnil, trim]
    · rw [trim, trimStart_of_leading (leading_append_space hm hzero hw), hw.trimEnd_append, trim,
        trimStart_of_leading hzero]
  | step v m hv ih =>
      rw [List.append_assoc, trim, hv.trimStart_append, ← trim, ih, trim, trim, hv.trimStart_append]

/-- White space at the end may be dropped before that at the front. -/
lemma trim_trimEnd (s : Bytes) : trim (trimEnd s) = trim s := by
  induction s using back_induction with
  | stop s hzero => rw [trimEnd_of_trailing hzero]
  | step s w hw ih => rw [hw.trimEnd_append, ih, hw.trim_append]

/-! ## Trimming around an octet that shows -/

lemma trimStart_append_ink (hc : IsInk c) (front rest : Bytes) :
    trimStart (front ++ c :: rest) = trimStart front ++ c :: rest := by
  induction front using front_induction with
  | stop front hzero =>
    have hstop : leading (front ++ c :: rest) = 0 := by
      by_cases hfront : front = []
      · rw [hfront, List.nil_append, leading_ink hc]
      · rwa [leading_append hfront (by simpa using hc.ascii)]
    rw [trimStart_of_leading hstop, trimStart_of_leading hzero]
  | step w front hw ih => rw [List.append_assoc, hw.trimStart_append, ih, hw.trimStart_append]

lemma trimEnd_append_ink (hc : IsInk c) (front rest : Bytes) :
    trimEnd (front ++ c :: rest) = front ++ c :: trimEnd rest := by
  induction rest using back_induction with
  | stop rest hzero =>
    rw [trimEnd_of_trailing hzero]
    refine trimEnd_of_trailing (by_contra fun hne => ?_)
    obtain ⟨before, w, hw, heq⟩ := exists_space_of_trailing hne
    rcases List.append_eq_append_iff.1 heq with ⟨_ | ⟨d, more⟩, -, hmore⟩ | ⟨more, -, rfl⟩
    · obtain rfl : c :: rest = w := hmore
      exact hw.noInk c List.mem_cons_self hc
    · obtain ⟨rfl, rfl⟩ := List.cons_eq_cons.1 (hmore.trans (List.cons_append ..))
      rw [List.reverse_append, hw.trailing_append] at hzero
      exact hw.ne_nil (List.eq_nil_of_length_eq_zero hzero)
    · exact hw.noInk c (by simp) hc
  | step rest w hw ih =>
    rw [← List.cons_append, ← List.append_assoc, hw.trimEnd_append, ih, hw.trimEnd_append]

/-! ## Trimmed pieces -/

/-- The pieces between the octets `sep`, without the white space around them. -/
def pieces (sep : UInt8) (s : Bytes) : List Bytes := (Bytes.splitOn sep s).map trim

lemma pieces_append (sep : UInt8) (front rest : Bytes) :
    pieces sep (front ++ sep :: rest) = pieces sep front ++ pieces sep rest := by
  rw [pieces, Bytes.splitOn_append, List.map_append, pieces, pieces]

lemma pieces_ne_nil (sep : UInt8) (s : Bytes) :
    pieces sep s ≠ [] := by simp [pieces, Bytes.splitOn_ne_nil]

lemma pieces_of_notMem (h : sep ∉ s) : pieces sep s = [trim s] := by
  rw [pieces, Bytes.splitOn_of_notMem h, List.map_singleton]

lemma pieces_trimStart (hsep : IsInk sep) (s : Bytes) :
    pieces sep (trimStart s) = pieces sep s := by
  have hsingle : ∀ {s}, sep ∉ s → pieces sep (trimStart s) = pieces sep s := fun {s} hs => by
    obtain ⟨gap, heq, -⟩ := exists_trimStart s
    have hs' : sep ∉ trimStart s :=
      fun hmem => hs (by rw [heq]; exact List.mem_append_right gap hmem)
    rw [pieces_of_notMem hs', pieces_of_notMem hs, trim_trimStart]
  by_cases hmem : sep ∈ s
  · obtain ⟨front, rest, rfl, hfront⟩ := List.eq_append_cons_of_mem hmem
    rw [trimStart_append_ink hsep, pieces_append, pieces_append, hsingle hfront]
  · exact hsingle hmem

lemma pieces_trimEnd {sep : UInt8} (hsep : IsInk sep) (s : Bytes) :
    pieces sep (trimEnd s) = pieces sep s := by
  by_cases hmem : sep ∈ s
  · obtain ⟨front, rest, hs, -⟩ := List.eq_append_cons_of_mem hmem
    rw [hs, trimEnd_append_ink hsep, pieces_append, pieces_append, pieces_trimEnd hsep rest]
  · obtain ⟨gap, heq, -⟩ := exists_trimEnd s
    have hmem' : sep ∉ trimEnd s :=
      fun hend => hmem (by rw [heq]; exact List.mem_append_left gap hend)
    rw [pieces_of_notMem hmem', pieces_of_notMem hmem, trim_trimEnd]
termination_by s.length
decreasing_by simp [hs]; omega

/-- Trimming the text first changes none of its pieces. -/
lemma pieces_trim (hsep : IsInk sep) (s : Bytes) : pieces sep (trim s) = pieces sep s := by
  rw [trim, pieces_trimEnd hsep, pieces_trimStart hsep]

end Blank

end UiCodegen
