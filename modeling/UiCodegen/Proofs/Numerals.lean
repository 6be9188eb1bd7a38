import UiCodegen.Proofs.JsonGrammar

/-!
# Digits and numbers

What digits of a base stand for, by the place that each of them has.  The readers of integers take
one digit after the other and refuse what is too large; as long as there is room, they come to the
number that the digits stand for.
-/

namespace UiCodegen.Numeral

variable {base : Nat} {s : Bytes}

/-- Octets that are digits of a base, which is sixteen at most, and the values of the digits. -/
def AreDigits (base : Nat) (s : Bytes) (ds : List Nat) : Prop :=
  List.Forall₂ (fun c d => Document.Json.hexValue? c = some d ∧ d < base) s ds

/-- The number with the given digits, the highest of them first. -/
def value (base : Nat) (ds : List Nat) : Nat := Nat.ofDigits base ds.reverse

lemma value_cons (base d : Nat) (ds : List Nat) :
    value base (d :: ds) = d * base ^ ds.length + value base ds := by
  simp only [value, List.reverse_cons, Nat.ofDigits_append, List.length_reverse,
    Nat.ofDigits_singleton]
  ring

lemma value_append (base : Nat) (ds es : List Nat) :
    value base (ds ++ es) = value base ds * base ^ es.length + value base es := by
  simp only [value, List.reverse_append, Nat.ofDigits_append, List.length_reverse]
  ring

lemma hexValue?_lt_ten_iff {c : UInt8} {d : Nat} :
    Document.Json.hexValue? c = some d ∧ d < 10 ↔ Bytes.isDigit c ∧ d = c.toNat - 48 := by
  have hdigit : Bytes.isDigit c ↔ 48 ≤ c.toNat ∧ c.toNat ≤ 57 := by
    simp [Bytes.isDigit, UInt8.le_iff_toNat_le]
  rw [hdigit]
  simp only [Document.Json.hexValue?, UInt8.le_iff_toNat_le, UInt8.reduceToNat]
  split_ifs <;> simp <;> omega

namespace AreDigits

variable {base : Nat} {s t : Bytes} {ds es : List Nat}

lemma append (hs : AreDigits base s ds) (ht : AreDigits base t es) :
    AreDigits base (s ++ t) (ds ++ es) :=
  List.rel_append hs ht

lemma drop (n : Nat) (hs : AreDigits base s ds) : AreDigits base (s.drop n) (ds.drop n) :=
  List.forall₂_drop n hs

lemma lt (hs : AreDigits base s ds) : ∀ d ∈ ds, d < base := by
  induction hs with
  | nil => simp
  | cons hd _ ih => exact List.forall_mem_cons.2 ⟨hd.2, ih⟩

lemma value_lt (hbase : 1 < base) (hs : AreDigits base s ds) : value base ds < base ^ s.length := by
  have hlt := Nat.ofDigits_lt_base_pow_length (b := base) (l := ds.reverse) hbase
    fun d hd => hs.lt d (List.mem_reverse.1 hd)
  rwa [List.length_reverse, ← hs.length_eq] at hlt

lemma isDigit (hs : AreDigits 10 s ds) : ∀ c ∈ s, Bytes.isDigit c := by
  induction hs with
  | nil => simp
  | cons hc _ ih => exact List.forall_mem_cons.2 ⟨(hexValue?_lt_ten_iff.1 hc).1, ih⟩

lemma isHexDigit (hs : AreDigits base s ds) : ∀ c ∈ s, Document.Json.isHexDigit c := by
  induction hs with
  | nil => simp
  | cons hc _ ih =>
    rw [Document.Json.hexValue?_eq, Option.ite_none_right_eq_some] at hc
    exact List.forall_mem_cons.2 ⟨hc.1.1, ih⟩

end AreDigits

lemma areDigits_of_isDigit (h : ∀ c ∈ s, Bytes.isDigit c) :
    AreDigits 10 s (s.map fun c => c.toNat - 48) := by
  induction s with
  | nil => exact .nil
  | cons c rest ih =>
    obtain ⟨hc, hrest⟩ := List.forall_mem_cons.1 h
    exact .cons (hexValue?_lt_ten_iff.2 ⟨hc, rfl⟩) (ih hrest)

/-! ## Reading -/

lemma hexValue?_eq_some_iff (c : UInt8) (d : Nat) :
    Document.Json.hexValue? c = some d ↔ Integer.digit? c = some d ∧ d < 16 := by
  have hfilter : ∀ c, Document.Json.hexValue? c = (Integer.digit? c).filter
      (· < 16) := by decide +kernel
  rw [hfilter, Option.filter_eq_some_iff, decide_eq_true_eq]

/-- A digit in front takes part in the sum as if it had been read before. -/
lemma value_step {ds : List Nat} (hs : AreDigits base s ds) (acc d : Nat) (c : UInt8) :
    acc * base ^ (c :: s).length + value base (d :: ds) = (acc * base + d) * base ^ s.length +
    value base ds := by
  rw [value_cons, ← hs.length_eq, List.length_cons, pow_succ]
  ring

/-- What is read are digits, and the number that they stand for. -/
lemma areDigits_of_digits (hbase : base ≤ 16) {acc n : Nat}
    (h : Integer.digits base false acc s = .ok n) :
    ∃ ds, AreDigits base s ds ∧ n = acc * base ^ s.length + value base ds := by
  fun_induction Integer.digits base false acc s with
  | case1 acc =>
    cases h
    exact ⟨[], .nil, by simp [value]⟩
  | case2 acc c rest hscore => simp at hscore
  | case3 | case4 | case5 => cases h
  | case6 acc c rest _ d hdigit hd _ ih =>
    obtain ⟨ds, hds, rfl⟩ := ih h
    exact ⟨d :: ds, .cons ⟨(hexValue?_eq_some_iff c d).2 ⟨hdigit, by omega⟩, by omega⟩ hds,
      (value_step hds acc d c).symm⟩

/-- Digits are read if the number that they stand for fits. -/
lemma digits_of_areDigits {ds : List Nat} (h : AreDigits base s ds) (underscores : Bool) (acc : Nat)
    (hfits : acc * base ^ s.length + value base ds < 2 ^ 64) :
    Integer.digits base underscores acc s = .ok (acc * base ^ s.length + value base ds) := by
  induction h generalizing acc with
  | nil => simp [Integer.digits, value]
  | @cons c d rest ds hd hrest ih =>
    have hdigit := ((hexValue?_eq_some_iff c d).1 hd.1).1
    have hscore : c ≠ 95 := by
      rintro rfl
      cases hdigit
    rw [value_step hrest] at hfits ⊢
    have hroom : ¬ Nat.pow 2 64 ≤ acc * base + d := by
      have hpos : 1 ≤ base ^ rest.length := Nat.one_le_pow _ _ (by omega)
      have hpow : Nat.pow 2 64 = 2 ^ 64 := rfl
      nlinarith
    simp [Integer.digits, hscore, hdigit, Nat.not_le.2 hd.2, hroom, ih _ hfits]

end UiCodegen.Numeral
