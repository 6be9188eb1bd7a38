import UiCodegen.C.Writer
import UiCodegen.Proofs.Words

/-!
# Where lines begin

A writer keeps a flag that says whether the next piece begins a line.  A `Page` keeps no flag: it
looks at the end of its own text, so it puts spaces in front of a piece exactly where a line begins.
The two agree (`Agrees`) when they have the same text and level and the flag says what the end of
the text says.

Two kinds of edit lose the agreement.  An empty text written as it is sets the flag wherever it
stands.  A list is put item by item, and every piece clears the flag, so an item that ends with a
line break, or an empty one at the start of a line, is followed by text without its spaces.
`Edit.Fits` leaves out exactly these, and the writer agrees with the page throughout a run if and
only if every edit of the run fits (`Agrees.run_iff`).

A text that is written or appended is one piece for each line, so all its lines have their spaces
(`text_write`).  As the text of one line or an item of a list it is a single piece
(`text_piece_iff`).  Written octet by octet it has the same effect (`write_eq_foldl`), so it does
not matter where a text is cut.
-/

namespace UiCodegen

/-! ## Splitting -/

namespace Bytes

lemma splitOn_cons (sep b : UInt8) (s : Bytes) : splitOn sep (b :: s) =
    if b = sep then [] :: splitOn sep s else (splitOn sep s).modifyHead (b :: ·) := by
  by_cases hsep : b = sep <;> simp [splitOn, hsep]

lemma splitOn_ne_nil (sep : UInt8) (s : Bytes) : splitOn sep s ≠ [] := by simp [splitOn]

lemma notMem_of_mem_splitOn {sep : UInt8} {s : Bytes} : ∀ piece ∈ splitOn sep s, sep ∉ piece := by
  induction s with
  | nil => simp [splitOn]
  | cons b s ih =>
    rw [splitOn_cons]
    obtain ⟨first, pieces, heq⟩ := List.exists_cons_of_ne_nil (splitOn_ne_nil sep s)
    rw [heq] at ih ⊢
    split
    · simpa using ih
    · rename_i hsep
      simpa [Ne.symm hsep] using ih

end Bytes

namespace C

/-! ## Pages -/

/-- Whether a line begins behind a text: the text is empty or ends with a line break. -/
def atLineStart (text : Bytes) : Bool := text.isEmpty || text.getLast? == some 10

/-- Source text that is laid out by looking at its own end. -/
structure Page where
  text : Bytes := []
  depth : Nat := 0

/-- What can be done to a page at once: putting a piece, which is indented if it begins a line,
putting a text as it is, and going one level deeper or back. -/
inductive Stroke where
  | piece (s : Bytes)
  | verbatim (s : Bytes)
  | deeper
  | back

namespace Page

/-- The spaces in front of a piece: four for each level if the piece begins a line and has something
to show on it. -/
def margin (p : Page) (s : Bytes) : Bytes :=
  if atLineStart p.text && s.head?.any (· != 10) then List.replicate (p.depth * 4) 32 else []

def piece (p : Page) (s : Bytes) : Page := { p with text := p.text ++ (p.margin s ++ s) }

def verbatim (p : Page) (s : Bytes) : Page := { p with text := p.text ++ s }

def draw (p : Page) : Stroke → Page
  | .piece s => p.piece s
  | .verbatim s => p.verbatim s
  | .deeper => { p with depth := p.depth + 1 }
  | .back => { p with depth := p.depth - 1 }

end Page

/-! ## Edits -/

/-- An operation of the writer. -/
inductive Edit where
  | line (s : Bytes)
  | write (s : Bytes)
  | raw (s : Bytes)
  | blank
  | list (items : List Bytes)
  | comment (s : Bytes)
  | append (other : Writer)
  | indent
  | dedent

def Writer.edit (w : Writer) : Edit → Writer
  | .line s => w.line s
  | .write s => w.write s
  | .raw s => w.raw s
  | .blank => w.blank
  | .list items => w.list items
  | .comment s => w.comment s
  | .append other => w.append other
  | .indent => w.indent
  | .dedent => w.dedent

/-- The pieces of a text of several lines, with the line breaks between them. -/
def lineStrokes : List Bytes → List Stroke
  | [] => []
  | [last] => [.piece last]
  | piece :: pieces => .piece piece :: .verbatim [10] :: lineStrokes pieces

lemma lineStrokes_cons (piece : Bytes) {pieces : List Bytes} (h : pieces ≠ []) :
    lineStrokes (piece :: pieces) = .piece piece :: .verbatim [10] :: lineStrokes pieces := by
  rw [lineStrokes]
  exact h

/-- The items of a list, with the commas between them. -/
def listStrokes : List Bytes → List Stroke
  | [] => []
  | [item] => [.piece item]
  | item :: items => .piece item :: .piece ", " :: listStrokes items

def Edit.strokes : Edit → List Stroke
  | .line s => [.piece s, .verbatim [10]]
  | .write s => lineStrokes (Bytes.splitOn 10 s)
  | .raw s => [.verbatim s]
  | .blank => [.verbatim [10]]
  | .list items => listStrokes items
  | .comment s => [.piece ("/* " ++ commentSafe s ++ " */"), .verbatim [10]]
  | .append other => lineStrokes (Bytes.splitOn 10 other.text)
  | .indent => [.deeper]
  | .dedent => [.back]

def Page.edit (p : Page) (e : Edit) : Page := e.strokes.foldl draw p

/-- An edit, or a block around passages. -/
inductive Passage where
  | edit (e : Edit)
  /-- A block with a head in front of its brace and a tail behind the closing one. -/
  | block (head : Bytes) (body : List Passage) (tail : Bytes)

namespace Passage

mutual

def run : Passage → Writer → Writer
  | .edit e, w => w.edit e
  | .block head body tail, w => w.block head (runAll body) tail

def runAll : List Passage → Writer → Writer
  | [], w => w
  | p :: ps, w => runAll ps (p.run w)

end

mutual

/-- The edits of a passage: a block is a line, its body one level deeper, and a line. -/
def edits : Passage → List Edit
  | .edit e => [e]
  | .block head body tail =>
    [.line (head ++ " \x7b"), .indent] ++ (editsAll body ++ [.dedent, .line ("\x7d" ++ tail)])

def editsAll : List Passage → List Edit
  | [] => []
  | p :: ps => p.edits ++ editsAll ps

end

mutual

lemma run_eq : ∀ (p : Passage) (w : Writer), p.run w = p.edits.foldl Writer.edit w
  | .edit e, w => by simp [run, edits]
  | .block head body tail, w => by
    simp [run, edits, Writer.block, Writer.edit, runAll_eq body]

lemma runAll_eq :
    ∀ (ps : List Passage) (w : Writer), runAll ps w = (editsAll ps).foldl Writer.edit w
  | [], w => by simp [runAll, editsAll]
  | p :: ps, w => by simp [runAll, editsAll, run_eq p, runAll_eq ps]

end

end Passage

/-! ## Agreement -/

/-- The writer has the text and the level of the page, and its flag says whether a line begins. -/
structure Agrees (w : Writer) (p : Page) : Prop where
  text : w.text = p.text
  depth : w.depth = p.depth
  lineStart : w.lineStart = atLineStart p.text

variable {b : UInt8} {w : Writer}

lemma agrees_empty : Agrees .empty {} := ⟨rfl, rfl, rfl⟩

lemma atLineStart_append (s : Bytes) {t : Bytes} (h : t ≠ []) :
    atLineStart (s ++ t) = atLineStart t := by
  rw [atLineStart, atLineStart, List.getLast?_append_of_ne_nil s h, List.isEmpty_eq_false_iff.2 h,
    List.isEmpty_eq_false_iff.2 (List.append_ne_nil_of_right_ne_nil s h)]

lemma atLineStart_break (s : Bytes) : atLineStart (s ++ [10]) = true := by
  rw [atLineStart_append _ (List.cons_ne_nil _ _)]
  rfl

lemma atLineStart_piece (p : Page) (s : Bytes) :
    atLineStart (p.piece s).text = atLineStart (p.text ++ s) := by
  cases s with
  | nil => simp [Page.piece, Page.margin]
  | cons b s =>
    have hne : b :: s ≠ [] := List.cons_ne_nil b s
    rw [Page.piece, atLineStart_append _ (List.append_ne_nil_of_right_ne_nil _ hne),
      atLineStart_append _ hne, atLineStart_append _ hne]

lemma text_put (w : Writer) (s : Bytes) : (w.put s).text =
    w.text ++
    ((if w.lineStart && s.head?.any (· != 10) then List.replicate (w.depth * 4) 32 else []) ++ s) :=
    by
  cases s with
  | nil => simp [Writer.put, Writer.text]
  | cons b s =>
    by_cases hbegins : (w.lineStart && b != 10) = true <;>
      simp [Writer.put, Writer.text, Writer.indentation, hbegins]

lemma text_put_of_unflagged (hw : w.lineStart = false) (s : Bytes) :
    (w.put s).text = w.text ++ s := by
  simp [text_put, hw]

namespace Agrees

variable {w : Writer} {p : Page}

lemma text_put (h : Agrees w p) (s : Bytes) : (w.put s).text = (p.piece s).text := by
  rw [C.text_put, h.text, h.depth, h.lineStart, Page.piece, Page.margin]

/-- A piece clears the flag, so it must not leave the text where a line begins. -/
lemma put_iff (h : Agrees w p) (s : Bytes) :
    Agrees (w.put s) (p.piece s) ↔ atLineStart (p.text ++ s) = false := by
  rw [← atLineStart_piece]
  exact ⟨fun hput => hput.lineStart.symm, fun hend => ⟨h.text_put s, h.depth, hend.symm⟩⟩

lemma newline (htext : w.text = p.text) (hdepth : w.depth = p.depth) :
    Agrees w.newline (p.verbatim [10]) where
  text := by
    rw [Page.verbatim, ← htext]
    simp [Writer.newline, Writer.text]
  depth := hdepth
  lineStart := (atLineStart_break p.text).symm

lemma line (h : Agrees w p) (s : Bytes) : Agrees (w.line s) ((p.piece s).verbatim [10]) :=
  newline (h.text_put s) h.depth

lemma raw_iff (h : Agrees w p) (s : Bytes) :
    Agrees (w.raw s) (p.verbatim s) ↔ (s = [] → atLineStart p.text = true) := by
  have htext : (w.raw s).text = (p.verbatim s).text := by
    rw [Page.verbatim, ← h.text]
    simp [Writer.raw, Writer.text]
  have hflag : (w.raw s).lineStart = atLineStart s := rfl
  refine ⟨fun hraw hs => ?_, fun hs => ⟨htext, h.depth, ?_⟩⟩
  · have hend := hraw.lineStart
    rw [hflag, hs, Page.verbatim, List.append_nil] at hend
    exact hend.symm
  · rw [hflag, Page.verbatim]
    by_cases hnil : s = []
    · rw [hnil, List.append_nil, hs hnil]
      rfl
    · rw [atLineStart_append _ hnil]

/-- The last piece is the only one behind which no line ends, and it is put only if it is not empty.
-/
lemma writePieces (h : Agrees w p) {pieces : List Bytes} (hpieces : ∀ piece ∈ pieces, 10 ∉ piece) :
    Agrees (w.writePieces pieces) ((lineStrokes pieces).foldl Page.draw p) := by
  induction pieces using lineStrokes.induct generalizing w p with
  | case1 => exact h
  | case2 last =>
    have hbreak : 10 ∉ last := hpieces last (List.mem_singleton_self last)
    by_cases hnil : last = []
    · simpa [Writer.writePieces, lineStrokes, Page.draw, Page.piece, Page.margin, hnil] using h
    · have hend : atLineStart (p.text ++ last) = false := by
        have hlast : last.getLast? ≠ some 10 := fun hlast => hbreak (List.mem_of_getLast? hlast)
        simp [hnil, atLineStart, hlast]
      simpa [Writer.writePieces, lineStrokes, Page.draw, hnil] using (h.put_iff last).2 hend
  | case3 piece pieces hmore ih =>
    have hrest := ih (h.line piece) fun q hq => hpieces q (List.mem_cons_of_mem _ hq)
    simpa [Writer.writePieces, lineStrokes_cons piece hmore, Page.draw, hmore] using hrest

lemma write (h : Agrees w p) (s : Bytes) :
    Agrees (w.write s) ((lineStrokes (Bytes.splitOn 10 s)).foldl Page.draw p) :=
  h.writePieces Bytes.notMem_of_mem_splitOn

/-! ### Lists -/

/-- A writer inside a line that has less text than a page stays behind it. -/
lemma length_list_lt {w : Writer} {p : Page} (hw : w.lineStart = false)
    (hlt : w.text.length < p.text.length)
    (items : List Bytes) :
    (w.list items).text.length < ((listStrokes items).foldl Page.draw p).text.length := by
  have hput : ∀ {w : Writer} {p : Page} (s : Bytes), w.lineStart = false →
      w.text.length < p.text.length → (w.put s).text.length < (p.piece s).text.length := by
    intro w p s hw hlt
    simp only [text_put_of_unflagged hw, Page.piece, List.length_append]
    omega
  induction items using listStrokes.induct generalizing w p with
  | case1 => exact hlt
  | case2 item => exact hput item hw hlt
  | case3 item items hmore ih =>
    obtain ⟨next, items, rfl⟩ := List.exists_cons_of_ne_nil hmore
    exact ih rfl (hput ", " rfl (hput item hw hlt))

end Agrees

/-- No item leaves the page where it is put at the start of a line.  Without indentation only the
last one counts, since then a comma at the start of a line has no spaces in front of it. -/
def ListFits (p : Page) : List Bytes → Prop
  | [] => True
  | [item] => atLineStart (p.text ++ item) = false
  | item :: items =>
    (p.depth = 0 ∨ atLineStart (p.text ++ item) = false) ∧
      ListFits ((p.piece item).piece ", ") items

namespace Agrees

variable {w : Writer} {p : Page}

lemma margin_comma_iff (p : Page) (item : Bytes) :
    (p.piece item).margin ", " = [] ↔ p.depth = 0 ∨ atLineStart (p.text ++ item) = false := by
  have hcomma : (List.head? (", " : Bytes)).any (· != 10) = true := by decide
  have hdepth : (p.piece item).depth = p.depth := rfl
  rw [Page.margin, atLineStart_piece, hcomma, Bool.and_true, hdepth]
  cases atLineStart (p.text ++ item) <;> simp

lemma put_comma (h : Agrees w p) {item : Bytes}
    (hitem : p.depth = 0 ∨ atLineStart (p.text ++ item) = false) :
    Agrees ((w.put item).put ", ") ((p.piece item).piece ", ") where
  text := by
    rw [text_put_of_unflagged rfl, h.text_put, Page.piece.eq_1 (p.piece item),
      (margin_comma_iff p item).2 hitem]
    rfl
  depth := h.depth
  lineStart := by
    rw [atLineStart_piece, atLineStart_append _ (by decide)]
    rfl

lemma list_iff (h : Agrees w p) (items : List Bytes) :
    Agrees (w.list items) ((listStrokes items).foldl Page.draw p) ↔ ListFits p items := by
  induction items using listStrokes.induct generalizing w p with
  | case1 => exact iff_of_true h trivial
  | case2 item => exact h.put_iff item
  | case3 item items hmore ih =>
    obtain ⟨next, items, rfl⟩ := List.exists_cons_of_ne_nil hmore
    by_cases hitem : p.depth = 0 ∨ atLineStart (p.text ++ item) = false
    · exact (ih (h.put_comma hitem)).trans (and_iff_right hitem).symm
    · -- The page puts spaces in front of the comma and the writer none, so the page has more text.
      refine iff_of_false (fun hlist => ?_) fun hfits => hitem hfits.1
      have hmargin := List.length_pos_iff.2 fun hnil => hitem ((margin_comma_iff p item).1 hnil)
      have hbehind : ((w.put item).put ", ").text.length <
          ((p.piece item).piece ", ").text.length := by
        rw [text_put_of_unflagged rfl, h.text_put, Page.piece.eq_1 (p.piece item)]
        simp only [List.length_append]
        omega
      exact (length_list_lt rfl hbehind (next :: items)).ne (congrArg List.length hlist.text)

end Agrees

/-! ## Runs -/

/-- An edit after which the flag still says what the end of the text says, and in which no spaces
are missing. -/
def Edit.Fits (p : Page) : Edit → Prop
  | .raw s => s = [] → atLineStart p.text = true
  | .list items => ListFits p items
  | _ => True

def AllFit (p : Page) : List Edit → Prop
  | [] => True
  | e :: es => e.Fits p ∧ AllFit (p.edit e) es

lemma Writer.append_eq_write (w other : Writer) : w.append other = w.write other.text := by
  unfold append
  split
  · rename_i hempty
    have hnil : other.text = [] := by simpa [isEmpty, text] using hempty
    rw [hnil]
    rfl
  · rfl

lemma Agrees.edit_iff {p : Page} (h : Agrees w p) (e : Edit) :
    Agrees (w.edit e) (p.edit e) ↔ e.Fits p := by
  cases e with
  | line s => exact iff_of_true (h.line s) trivial
  | write s => exact iff_of_true (h.write s) trivial
  | raw s => exact h.raw_iff s
  | blank => exact iff_of_true (.newline h.text h.depth) trivial
  | list items => exact h.list_iff items
  | comment s => exact iff_of_true (h.line _) trivial
  | append other =>
    refine iff_of_true ?_ trivial
    rw [Writer.edit, Writer.append_eq_write]
    exact h.write other.text
  | indent => exact iff_of_true ⟨h.text, congrArg (· + 1) h.depth, h.lineStart⟩ trivial
  | dedent => exact iff_of_true ⟨h.text, congrArg (· - 1) h.depth, h.lineStart⟩ trivial

/-- The agreement is kept through a run exactly if it is kept by each edit. -/
lemma Agrees.run_iff {p : Page} (h : Agrees w p) (es : List Edit) :
    (∀ front, front <+: es → Agrees (front.foldl Writer.edit w) (front.foldl Page.edit p)) ↔
    AllFit p es := by
  induction es generalizing w p with
  | nil =>
      exact iff_of_true (fun front hprefix => by simpa [List.prefix_nil.1 hprefix] using h) trivial
  | cons e es ih =>
    constructor
    · intro hrun
      have hedit : Agrees (w.edit e) (p.edit e) := hrun [e] (by simp)
      exact ⟨(h.edit_iff e).1 hedit, (ih hedit).1 fun front hprefix => hrun (e :: front)
        (by simpa using hprefix)⟩
    · rintro ⟨hfits, hrest⟩ front hprefix
      obtain rfl | ⟨front, rfl, hfront⟩ := List.prefix_cons_iff.1 hprefix
      · exact h
      · exact (ih ((h.edit_iff e).2 hfits)).2 hrest front hfront

/-! ## Lines inside a piece -/

/-- A text with four spaces for each level in front of every line that is not empty; `start` says
whether a line begins in front of it. -/
def laidOut (depth : Nat) : Bool → Bytes → Bytes
  | _, [] => []
  | start, b :: rest =>
    if b = 10 then 10 :: laidOut depth true rest
    else (if start then List.replicate (depth * 4) 32 else []) ++ b :: laidOut depth false rest

lemma laidOut_zero (start : Bool) (s : Bytes) : laidOut 0 start s = s := by
  induction s generalizing start with
  | nil => rfl
  | cons b s ih =>
    by_cases hbreak : b = 10 <;> simp [laidOut, hbreak, ih]

lemma length_le_laidOut (depth : Nat) (start : Bool) (s : Bytes) :
    s.length ≤ (laidOut depth start s).length := by
  induction s generalizing start with
  | nil => simp [laidOut]
  | cons b s ih =>
    have htrue := ih true
    have hfalse := ih false
    by_cases hbreak : b = 10 <;> simp [laidOut, hbreak] <;> omega

/-- A text in which only line breaks stand behind a line break. -/
def Flat (s : Bytes) : Prop := s.IsChain fun a b => a = 10 → b = 10

lemma flat_cons_iff (hb : b ≠ 10) (s : Bytes) : Flat (b :: s) ↔ Flat s := by
  rw [Flat, List.isChain_cons, Flat]
  simp [hb]

lemma flat_break_cons_iff (b : UInt8) (s : Bytes) :
    Flat (10 :: b :: s) ↔ b = 10 ∧ Flat (b :: s) := by
  rw [Flat, List.isChain_cons_cons, Flat]
  simp

lemma laidOut_eq_self_iff {depth : Nat} (hdepth : depth ≠ 0) (start : Bool) (s : Bytes) :
    laidOut depth start s = s ↔ Flat (if start then 10 :: s else s) := by
  induction s generalizing start with
  | nil => cases start <;> simp [laidOut, Flat]
  | cons b s ih =>
    by_cases hbreak : b = 10
    · have htail := ih true
      cases start <;> simpa [laidOut, hbreak, flat_break_cons_iff] using htail
    · cases start with
      | false => simpa [laidOut, hbreak, flat_cons_iff hbreak] using ih false
      | true =>
        refine iff_of_false (fun heq => ?_) fun hflat =>
          hbreak ((flat_break_cons_iff b s).1 hflat).1
        have hlength := congrArg List.length heq
        have hle := length_le_laidOut depth false s
        simp [laidOut, hbreak] at hlength
        omega

/-- The spaces in front of a piece are those of all its lines exactly if there are none to put or it
has no line behind the first. -/
lemma text_piece_iff (p : Page) (s : Bytes) :
    (p.piece s).text = p.text ++ laidOut p.depth (atLineStart p.text) s ↔ p.depth = 0 ∨ Flat s := by
  rw [Page.piece, List.append_cancel_left_eq, eq_comm]
  by_cases hzero : p.depth = 0
  · exact iff_of_true (by simp [Page.margin, hzero, laidOut_zero]) (.inl hzero)
  rw [or_iff_right hzero]
  have hself := laidOut_eq_self_iff hzero (atLineStart p.text) s
  cases s with
  | nil => simp [Page.margin, laidOut, Flat]
  | cons b s =>
    by_cases hbreak : b = 10
    · cases hstart : atLineStart p.text <;>
        simpa [Page.margin, hstart, hbreak, flat_break_cons_iff] using hself
    · have htail : laidOut p.depth false s = s ↔ Flat s := laidOut_eq_self_iff hzero false s
      rw [flat_cons_iff hbreak, ← htail]
      cases hstart : atLineStart p.text <;> simp [Page.margin, laidOut, hstart, hbreak]

lemma atLineStart_piece_singleton (p : Page) (hb : b ≠ 10) :
    atLineStart (p.piece [b]).text = false := by
  rw [atLineStart_piece, atLineStart_append _ (List.cons_ne_nil _ _)]
  simpa [atLineStart] using hb

/-- An octet that ends no line can be put apart from what stands behind it. -/
lemma foldl_lineStrokes_cons (hb : b ≠ 10) (p : Page) {pieces : List Bytes} (hne : pieces ≠ []) :
    (lineStrokes (pieces.modifyHead (b :: ·))).foldl Page.draw p =
      (lineStrokes pieces).foldl Page.draw (p.piece [b]) := by
  have hpiece : ∀ s, p.piece (b :: s) = (p.piece [b]).piece s := by
    intro s
    rw [Page.piece.eq_1 (p.piece [b]), Page.margin, atLineStart_piece_singleton p hb]
    simp [Page.piece, Page.margin, hb]
  obtain ⟨piece, rest, rfl⟩ := List.exists_cons_of_ne_nil hne
  cases rest with
  | nil => exact hpiece piece
  | cons next rest =>
    have hmore : next :: rest ≠ [] := List.cons_ne_nil next rest
    rw [List.modifyHead_cons, lineStrokes_cons (b :: piece) hmore, lineStrokes_cons piece hmore]
    simp only [List.foldl_cons, Page.draw, hpiece piece]

/-- All lines of a text that is written have their spaces. -/
lemma text_write (p : Page) (s : Bytes) :
    (p.edit (.write s)).text = p.text ++ laidOut p.depth (atLineStart p.text) s := by
  simp only [Page.edit, Edit.strokes]
  induction s generalizing p with
  | nil => simp [Bytes.splitOn, lineStrokes, Page.draw, Page.piece, Page.margin, laidOut]
  | cons b s ih =>
    have hne := Bytes.splitOn_ne_nil 10 s
    rw [Bytes.splitOn_cons]
    split
    · rename_i hbreak
      rw [lineStrokes_cons _ hne, List.foldl_cons, List.foldl_cons, ih]
      simp [Page.draw, Page.piece, Page.margin, Page.verbatim, laidOut, hbreak, atLineStart_break]
    · rename_i hbreak
      rw [foldl_lineStrokes_cons hbreak p hne, ih, atLineStart_piece_singleton p hbreak]
      simp [Page.piece, Page.margin, laidOut, hbreak]

/-! ## The writer knows where lines begin -/

/-- Whatever is written to an empty writer, blocks and all, it agrees with the page throughout
exactly if every edit fits.  A page indents all lines of a text that is written; of a piece it
indents the lines behind the first only where there are no spaces to put. -/
theorem line_starts_known_iff (ps : List Passage) :
    Passage.runAll ps .empty = (Passage.editsAll ps).foldl Writer.edit .empty ∧
    ((∀ front, front <+: Passage.editsAll ps →
        Agrees (front.foldl Writer.edit .empty) (front.foldl Page.edit {})) ↔
          AllFit {} (Passage.editsAll ps)) ∧
    (∀ (p : Page) (s : Bytes), (p.edit (.write s)).text = p.text ++ laidOut p.depth
      (atLineStart p.text) s) ∧
    ∀ (p : Page) (s : Bytes), (p.piece s).text = p.text ++ laidOut p.depth (atLineStart p.text) s ↔
      p.depth = 0 ∨ Flat s :=
  ⟨Passage.runAll_eq ps .empty, agrees_empty.run_iff _, text_write, text_piece_iff⟩

/-- An empty text inside a line makes the writer indent in its middle, and an empty item at the
start of a line makes it forget the spaces of the line. -/
theorem empty_texts_mislead :
    (Passage.runAll [.edit .indent, .edit (.write "a"), .edit (.raw ""), .edit (.line "b"), .edit
      (.list [""]), .edit (.line "c")] .empty).text = ("    a    b\nc\n" : Bytes) ∧
    (Passage.runAll [.edit .indent, .edit (.write "a"), .edit (.raw "")] .empty).lineStart = true ∧
    (Passage.runAll [.edit .indent, .edit (.list [""])] .empty).lineStart = false := by
  decide

/-! ## Cutting a text -/

namespace Writer

variable {b : UInt8} {pieces : List Bytes}

/-- Writes one octet: a line break ends the line, and anything else is a piece of it. -/
def octet (w : Writer) (b : UInt8) : Writer := if b = 10 then w.newline else w.put [b]

lemma line_nil (w : Writer) : w.line [] = w.newline := by simp [line, put, newline]

/-- A piece can be cut behind its first octet, since the flag is cleared by then. -/
lemma put_cons (hb : b ≠ 10) (w : Writer) (s : Bytes) : w.put (b :: s) = (w.put [b]).put s := by
  cases s <;> cases hstart : w.lineStart <;> simp [put, hstart, hb]

lemma writePieces_cons (w : Writer) (piece : Bytes) (h : pieces ≠ []) :
    w.writePieces (piece :: pieces) = (w.line piece).writePieces pieces := by
  rw [writePieces]
  exact h

lemma writePieces_modifyHead (hb : b ≠ 10) (w : Writer) (hne : pieces ≠ []) :
    w.writePieces (pieces.modifyHead (b :: ·)) = (w.put [b]).writePieces pieces := by
  obtain ⟨piece, rest, rfl⟩ := List.exists_cons_of_ne_nil hne
  rw [List.modifyHead_cons]
  cases rest with
  | nil =>
    -- The empty rest of the text is not put, and putting it would change nothing.
    cases piece with
    | nil => rfl
    | cons c piece => exact put_cons hb w (c :: piece)
  | cons next rest =>
    have hmore : next :: rest ≠ [] := List.cons_ne_nil next rest
    rw [writePieces_cons w _ hmore, writePieces_cons _ _ hmore, line, line, put_cons hb]

/-- Writing a text is writing its octets one after the other. -/
lemma write_eq_foldl (w : Writer) (s : Bytes) : w.write s = s.foldl octet w := by
  induction s generalizing w with
  | nil => rfl
  | cons b s ih =>
    have hne := Bytes.splitOn_ne_nil 10 s
    rw [List.foldl_cons, ← ih, write, Bytes.splitOn_cons, octet]
    split
    · rw [writePieces_cons w [] hne, line_nil, write]
    · rename_i hb
      rw [writePieces_modifyHead hb w hne, write]

lemma write_write (w : Writer) (a b : Bytes) : (w.write a).write b = w.write (a ++ b) := by
  rw [write_eq_foldl, write_eq_foldl, write_eq_foldl, List.foldl_append]

lemma foldl_write (w : Writer) (pieces : List Bytes) :
    pieces.foldl write w = w.write pieces.flatten := by
  induction pieces generalizing w with
  | nil => rfl
  | cons piece pieces ih => rw [List.foldl_cons, ih, write_write, List.flatten_cons]

/-- From every state of a writer, a text may be cut in two wherever one likes, and a buffer that
holds it, however it was filled, has the same effect as the text in any number of pieces. -/
theorem write_cut_anywhere (w : Writer) :
    (∀ a b, (w.write a).write b = w.write (a ++ b)) ∧
    ∀ (other : Writer) (pieces : List Bytes),
      w.append { other with output := pieces.flatten.toArray } = pieces.foldl write w := by
  refine ⟨write_write w, fun other pieces => ?_⟩
  rw [append_eq_write, foldl_write, text, List.toList_toArray]

end Writer

end C

end UiCodegen
