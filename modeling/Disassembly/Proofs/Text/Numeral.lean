import Disassembly.Text.Numeral
import Mathlib.Algebra.Group.Nat.Defs
import Mathlib.Data.List.TakeWhile

/-!
Reading numbers back. A number has three written forms: decimal, hexadecimal behind a mark, and
hexadecimal behind a dollar sign. Letter case, underscores between digits and white space around the
whole are free. Every such text is read as the number that it was written for, with one exception:
a decimal text may not have more digits than the limit.
-/
namespace Disassembly.Text

section Forms

inductive NumberForm where
  | decimal
  | marked
  | dollar
  deriving DecidableEq

namespace NumberForm

def base : NumberForm → Nat
  | decimal => 10
  | marked | dollar => 16

/-- The base in which the rest is read, once a dollar sign is taken away. -/
def radix : NumberForm → Radix
  | dollar => .hexadecimal
  | decimal | marked => .byMark

/-- What stands before the sign. -/
def sigil : NumberForm → List Char
  | dollar => ['$']
  | decimal | marked => []

/-- What stands between sign and digits. -/
def mark : NumberForm → List Char
  | marked => ['0', 'x']
  | decimal | dollar => []

end NumberForm

/-- Digits, with single underscores between some of them. -/
inductive Separated : List Char → List Char → Prop
  | single (d : Char) : Separated [d] [d]
  | adjacent {d : Char} {ds cs : List Char} : Separated ds cs → Separated (d :: ds) (d :: cs)
  | apart {d : Char} {ds cs : List Char} : Separated ds cs → Separated (d :: ds) (d :: '_' :: cs)

/-- The signs with which a number may be written. -/
inductive Signs : Int → List Char → Prop
  | none {n : Int} : 0 ≤ n → Signs n []
  | plus {n : Int} : 0 ≤ n → Signs n ['+']
  | minus {n : Int} : n ≤ 0 → Signs n ['-']

/--
The texts that stand for a number in a form. Case is free: what counts is the text with its letters
lowered. So is white space around the whole.
-/
inductive Writes (form : NumberForm) (n : Int) : String → Prop
  | intro {before core after sign digits : List Char} :
    (∀ c ∈ before, isBlank c) → (∀ c ∈ after, isBlank c) → Signs n sign →
    Separated (Nat.toDigits form.base n.natAbs) digits →
    core.map Char.toLower = form.sigil ++ sign ++ form.mark ++ digits →
    Writes form n (String.ofList (before ++ core ++ after))

end Forms

section Characters

/-- What may stand before and between digits. -/
def punctuation : List Char := ['_', '+', '-', '$']

/-- The characters of a number in lower case. -/
def numberChars : List Char :=
  ['0', '1', '2', '3', '4', '5', '6', '7', '8', '9', 'a', 'b', 'c', 'd', 'e', 'f', 'x'] ++
    punctuation

theorem toLower_eq_self_or (c : Char) : c.toLower = c ∨ 65 ≤ c.toNat ∧ c.toNat ≤ 90 := by
  unfold Char.toLower
  split
  · next h => exact Or.inr ⟨h.1, h.2⟩
  · exact Or.inl rfl

/-- Numbers consist of ASCII characters other than white space. -/
theorem ascii_of_numberChars {c : Char} (h : c.toLower ∈ numberChars) :
    c.toNat < 0x80 ∧ isBlank c = false := by
  rcases toLower_eq_self_or c with hsame | hupper
  · have hall : numberChars.all (fun d => d.toNat < 0x80 && !isBlank d) := by decide
    simpa using List.all_eq_true.1 hall c (hsame ▸ h)
  · refine ⟨by omega, ?_⟩
    simp [isBlank, isAsciiBlank]
    omega

theorem literalBlank_of_numberChars {c : Char} (h : c ∈ numberChars) :
    isLiteralBlank c = false := by
  have hall : numberChars.all (fun d => !isLiteralBlank d) := by decide
  simpa using List.all_eq_true.1 hall c h

theorem digitChar_spec {v : Nat} (hv : v < 16) :
    v.digitChar ∈ numberChars ∧ v.digitChar ∉ punctuation ∧ (v.digitChar = '0' → v = 0) := by
  have hall : ∀ v < 16, v.digitChar ∈ numberChars ∧ v.digitChar ∉ punctuation ∧
      (v.digitChar = '0' → v = 0) := by decide
  exact hall v hv

end Characters

section Trimming

variable {blank : Char → Bool} {before core after : List Char}

theorem dropWhile_of_forall (h : ∀ c ∈ core, blank c = false) : core.dropWhile blank = core := by
  cases core with
  | nil => rfl
  | cons c rest => exact List.dropWhile_cons_of_neg (by simp [h c (by simp)])

/-- Trimming takes the white space away from around a text that has none inside. -/
theorem trimChars_append (hbefore : ∀ c ∈ before, blank c) (hafter : ∀ c ∈ after, blank c)
    (hcore : ∀ c ∈ core, blank c = false) : trimChars blank (before ++ core ++ after) = core := by
  unfold trimChars
  rw [List.append_assoc, List.dropWhile_append_of_pos hbefore]
  cases core with
  | nil =>
    have hnone : after.dropWhile blank = [] := by simpa using hafter
    rw [List.nil_append, hnone]
    rfl
  | cons c rest =>
    rw [List.cons_append, List.dropWhile_cons_of_neg (by simp [hcore c (by simp)]),
      ← List.cons_append, List.reverse_append,
      List.dropWhile_append_of_pos (by simpa using hafter),
      dropWhile_of_forall fun d hd => hcore d (List.mem_reverse.1 hd), List.reverse_reverse]

theorem trimChars_of_forall (hcore : ∀ c ∈ core, blank c = false) :
    trimChars blank core = core := by
  simpa using @trimChars_append blank [] core [] (by simp) (by simp) hcore

end Trimming

section Digits

variable {base n : Nat} {ds cs : List Char} {vs : List Nat}

theorem digit?_digitChar {v : Nat} (hbase : base ≤ 16) (hv : v < base) :
    digit? base v.digitChar = some v := by
  have hall : ∀ base ≤ 16, ∀ v < base, digit? base v.digitChar = some v := by decide
  exact hall base hbase v hv

/-- The digits of a number: below the base, with its value, and without a zero in front. -/
structure DigitsOf (base n : Nat) (vs : List Nat) : Prop where
  chars : Nat.toDigits base n = vs.map Nat.digitChar
  lt_base : ∀ v ∈ vs, v < base
  value : ofDigits base vs = n
  head : n ≠ 0 → vs.head? ≠ some 0

theorem exists_digitsOf (hbase : 1 < base) (n : Nat) : ∃ vs, DigitsOf base n vs := by
  induction n using Nat.strongRecOn with
  | ind n ih =>
    by_cases hn : n < base
    · refine ⟨[n], Nat.toDigits_of_lt_base hn, by simpa using hn, by simp [ofDigits], ?_⟩
      simp
    · have hless : n / base < n := Nat.div_lt_self (by omega) hbase
      obtain ⟨vs, hchars, hlt, hvalue, hhead⟩ := ih (n / base) hless
      refine ⟨vs ++ [n % base], ?_, ?_, ?_, ?_⟩
      · rw [Nat.toDigits_of_base_le hbase (by omega), hchars]
        simp
      · intro v hv
        rcases List.mem_append.1 hv with hv | hv
        · exact hlt v hv
        · rw [List.mem_singleton.1 hv]
          exact Nat.mod_lt _ (by omega)
      · unfold ofDigits at hvalue ⊢
        rw [List.foldl_append, hvalue]
        exact Nat.div_add_mod' n base
      · intro _
        cases vs with
        | nil => exact absurd hchars Nat.toDigits_ne_nil
        | cons v rest => exact hhead (Nat.div_ne_zero_iff.2 ⟨by omega, by omega⟩)

namespace Separated

theorem ne_nil (h : Separated ds cs) : cs ≠ [] := by
  cases h <;> simp

theorem head?_eq (h : Separated ds cs) : cs.head? = ds.head? := by
  cases h <;> rfl

/-- Only underscores are put in. -/
theorem mem_or (h : Separated ds cs) {c : Char} (hc : c ∈ cs) : c = '_' ∨ c ∈ ds := by
  induction h with
  | single d => exact Or.inr hc
  | adjacent _ ih =>
    rcases List.mem_cons.1 hc with rfl | hc
    · exact Or.inr (by simp)
    · exact (ih hc).imp_right (List.mem_cons_of_mem _)
  | apart _ ih =>
    rcases List.mem_cons.1 hc with rfl | hc
    · exact Or.inr (by simp)
    rcases List.mem_cons.1 hc with rfl | hc
    · exact Or.inl rfl
    · exact (ih hc).imp_right (List.mem_cons_of_mem _)

theorem eq_of_singleton {d : Char} (h : Separated [d] cs) : cs = [d] := by
  cases h with
  | single => rfl
  | adjacent h => cases h
  | apart h => cases h

/-- Digits are read one by one, whether or not they are apart. -/
theorem digits?_eq (hbase : base ≤ 16) (h : Separated (vs.map Nat.digitChar) cs)
    (hlt : ∀ v ∈ vs, v < base) : digits? base cs = some vs := by
  induction vs generalizing cs with
  | nil => cases h
  | cons v rest ih =>
    have hfirst := digit?_digitChar hbase (hlt v (by simp))
    have ih (cs : List Char) (h : Separated (rest.map Nat.digitChar) cs) :
        digits? base cs = some rest := ih h fun u hu => hlt u (by simp [hu])
    generalize hds : (v :: rest).map Nat.digitChar = ds at h
    cases h with
    | single d =>
      obtain ⟨hd, hnone⟩ := List.cons.inj hds
      obtain rfl := List.map_eq_nil_iff.1 hnone
      rw [← hd]
      simp [digits?, hfirst]
    | @adjacent d ds cs h =>
      obtain ⟨rfl, rfl⟩ := List.cons.inj hds
      -- An underscore is no digit, so the next character begins the rest of the digits.
      have hhead (more : List Char) : cs ≠ '_' :: more := by
        rintro rfl
        obtain ⟨u, hu, hchar⟩ := List.mem_map.1 (List.mem_of_head? h.head?_eq.symm)
        have hdigit := digitChar_spec ((hlt u (by simp [hu])).trans_le hbase)
        exact hdigit.2.1 (by simp [hchar, punctuation])
      rw [digits?, hfirst, ih cs h]
      · rfl
      · exact h.ne_nil
      · exact hhead
    | @apart d ds cs h =>
      obtain ⟨rfl, rfl⟩ := List.cons.inj hds
      simp [digits?, hfirst, ih cs h]

section Numbers

variable (h : Separated (Nat.toDigits base n) cs) (hone : 1 < base) (hbase : base ≤ 16)

include h hone hbase

theorem natural?_eq : natural? base cs = some n := by
  obtain ⟨vs, hvs⟩ := exists_digitsOf hone n
  rw [hvs.chars] at h
  rw [natural?, h.digits?_eq hbase hvs.lt_base, Option.map_some, hvs.value]

/-- The text begins with a digit, and with a zero only if the number is zero. -/
theorem exists_first : ∃ v rest, cs = v.digitChar :: rest ∧ v < 16 ∧
    (v.digitChar = '0' → n = 0) := by
  obtain ⟨vs, hvs⟩ := exists_digitsOf hone n
  have hhead := h.head?_eq
  cases hcs : cs with
  | nil => exact absurd hcs h.ne_nil
  | cons c rest =>
    rw [hvs.chars, hcs, List.head?_map, List.head?_cons] at hhead
    obtain ⟨v, hv, rfl⟩ := Option.map_eq_some_iff.1 hhead.symm
    have hlt : v < 16 := (hvs.lt_base v (List.mem_of_head? hv)).trans_le hbase
    refine ⟨v, rest, rfl, hlt, fun hzero => ?_⟩
    obtain rfl := (digitChar_spec hlt).2.2 hzero
    exact Decidable.byContradiction fun hn => hvs.head hn hv

theorem ne_cons {c : Char} (hc : c ∈ punctuation) (rest : List Char) :
    cs ≠ c :: rest := by
  obtain ⟨v, more, rfl, hv, -⟩ := h.exists_first hone hbase
  intro hsame
  obtain ⟨rfl, -⟩ := List.cons.inj hsame
  exact (digitChar_spec hv).2.1 hc

/-- Nothing follows a zero in front. -/
theorem ne_zero_cons (c : Char) (rest : List Char) : cs ≠ '0' :: c :: rest := by
  obtain ⟨v, more, hcs, -, hzero⟩ := h.exists_first hone hbase
  intro hsame
  obtain ⟨hv, -⟩ := List.cons.inj (hcs.symm.trans hsame)
  obtain rfl := hzero hv
  rw [Nat.toDigits_zero] at h
  rw [h.eq_of_singleton] at hsame
  cases hsame

end Numbers

end Separated

end Digits

section Unsigned

variable {n : Nat} {cs : List Char}

/-- A decimal text counts its digits, not the underscores. -/
theorem surplus?_eq (h : Separated (Nat.toDigits 10 n) cs) :
    surplus? cs = if 4300 < (Nat.toDigits 10 n).length then some (Nat.toDigits 10 n).length
      else none := by
  have hall : cs.takeWhile (fun c => c.isDigit || c = '_') = cs := by
    refine List.takeWhile_eq_self_iff.2 fun c hc => ?_
    rcases h.mem_or hc with rfl | hdigit
    · rfl
    · simp [Nat.isDigit_of_mem_toDigits (by decide) (by decide) hdigit]
  obtain ⟨vs, hvs⟩ := exists_digitsOf (show 1 < 10 by decide) n
  have hlength : (Nat.toDigits 10 n).length = vs.length := by rw [hvs.chars, List.length_map]
  rw [hvs.chars] at h
  rw [surplus?, hall, h.digits?_eq (by decide) hvs.lt_base, hlength]
  rfl

/-- Reading the digits of a number gives the number, unless there are too many decimal ones. -/
def NumberForm.reading (form : NumberForm) (n : Nat) : Except NumeralFlaw Nat :=
  let count := (Nat.toDigits 10 n).length
  if form = .decimal ∧ 4300 < count then .error (.tooLong count) else .ok n

theorem decimal_eq (h : Separated (Nat.toDigits 10 n) cs) :
    decimal cs = NumberForm.decimal.reading n := by
  rw [decimal, surplus?_eq h, h.natural?_eq (by decide) (by decide)]
  by_cases hlong : 4300 < (Nat.toDigits 10 n).length
  · simp [NumberForm.reading, hlong]
  · simp [NumberForm.reading, hlong, orMalformed]

theorem plain_eq (h : Separated (Nat.toDigits 10 n) cs) :
    plain cs = NumberForm.decimal.reading n := by
  obtain ⟨v, rest, rfl, -, hzero⟩ := h.exists_first (by decide) (by decide)
  have hfirst : ¬ ((v.digitChar :: rest).head? = some '0' ∧ n ≠ 0) := by
    rintro ⟨hhead, hn⟩
    exact hn (hzero (Option.some.inj hhead))
  rw [plain, decimal_eq h]
  unfold NumberForm.reading
  dsimp only
  split
  · rfl
  · exact if_neg hfirst

/-- Sign and white space apart, each form is read as its number. -/
theorem unsigned_eq {form : NumberForm} (h : Separated (Nat.toDigits form.base n) cs) :
    unsigned form.radix (form.mark ++ cs) = form.reading n := by
  cases form with
  | decimal =>
    have hplain : unsigned .byMark cs = plain cs := by
      rw [unsigned]
      exact h.ne_zero_cons (by decide) (by decide)
    exact hplain.trans (plain_eq h)
  | marked =>
    have hafter : afterMark? 16 cs = natural? 16 cs := by
      rw [afterMark?]
      exact h.ne_cons (by decide) (by decide) (by decide)
    have hvalue : natural? 16 cs = some n := h.natural?_eq (by decide) (by decide)
    change orMalformed (afterMark? 16 cs) = .ok n
    rw [hafter, hvalue]
    rfl
  | dollar =>
    have hbare : unsigned .hexadecimal cs = orMalformed (natural? 16 cs) := by
      rw [unsigned]
      exact h.ne_zero_cons (by decide) (by decide)
    have hvalue : natural? 16 cs = some n := h.natural?_eq (by decide) (by decide)
    refine hbare.trans ?_
    rw [hvalue]
    rfl

end Unsigned

section Signed

variable {form : NumberForm} {n : Int} {sign cs digits before core after : List Char}

theorem NumberForm.map_reading (form : NumberForm) {m : Nat} {f : Nat → Int} (hf : f m = n) :
    (form.reading m).map f = (form.reading m).map fun _ => n := by
  unfold reading
  dsimp only
  split
  · rfl
  · exact congrArg Except.ok hf

theorem signed_eq {radix : Radix} (hsign : Signs n sign)
    (hbody : ∀ c ∈ punctuation, ∀ rest, cs ≠ c :: rest)
    (hread : unsigned radix cs = form.reading n.natAbs) :
    signed radix (sign ++ cs) = (form.reading n.natAbs).map fun _ => n := by
  cases hsign with
  | none hn =>
    have hbare : signed radix cs = (unsigned radix cs).map Int.ofNat := by
      rw [signed]
      · exact hbody '-' (by decide)
      · exact hbody '+' (by decide)
    rw [List.nil_append, hbare, hread]
    exact form.map_reading (Int.natAbs_of_nonneg hn)
  | plus hn =>
    change (unsigned radix cs).map Int.ofNat = _
    rw [hread]
    exact form.map_reading (Int.natAbs_of_nonneg hn)
  | minus hn =>
    have hminus : signed radix ('-' :: cs) =
        (unsigned radix cs).map fun m : Nat => -Int.ofNat m := by
      rw [signed]
      cases unsigned radix cs <;> rfl
    rw [List.cons_append, List.nil_append, hminus, hread]
    refine form.map_reading ?_
    simp only [Int.ofNat_eq_natCast]
    omega

/-- White space is trimmed and letters are lowered. -/
theorem lower_trim (hbefore : ∀ c ∈ before, isBlank c) (hafter : ∀ c ∈ after, isBlank c)
    (hcore : ∀ c ∈ core, c.toLower ∈ numberChars) :
    lower (trim (String.ofList (before ++ core ++ after))) =
      String.ofList (core.map Char.toLower) := by
  have htrim : trimChars isBlank (before ++ core ++ after) = core :=
    trimChars_append hbefore hafter fun c hc => (ascii_of_numberChars (hcore c hc)).2
  rw [trim, String.toList_ofList, htrim, lower, String.toList_ofList,
    lowerChars_eq_map _ _ fun c hc => (ascii_of_numberChars (hcore c hc)).1]

/-- A dollar sign decides how the rest is read. -/
theorem parseNumber_eq {text : String} {body : List Char}
    (hvalue : lower (trim text) = String.ofList (form.sigil ++ body))
    (hbody : ∀ rest, body ≠ '$' :: rest) :
    parseNumber text = (integer form.radix (String.ofList body)).mapError
      fun flaw => ⟨form.radix, String.ofList body, flaw⟩ := by
  unfold parseNumber
  rw [hvalue]
  dsimp only
  rw [String.toList_ofList]
  cases form with
  | dollar => rfl
  | decimal | marked =>
    dsimp only [NumberForm.sigil, NumberForm.radix, List.nil_append]
    split
    · exact absurd rfl (hbody _)
    · rfl

theorem NumberForm.sigil_subset (form : NumberForm) : form.sigil ⊆ numberChars := by
  cases form <;> simp [sigil, numberChars, punctuation]

theorem NumberForm.mark_subset (form : NumberForm) : form.mark ⊆ numberChars := by
  cases form <;> simp [mark, numberChars]

theorem Signs.subset (h : Signs n sign) : sign ⊆ numberChars := by
  cases h <;> simp [numberChars, punctuation]

section Body

variable (h : Separated (Nat.toDigits form.base n.natAbs) digits)

include h

theorem Separated.subset : digits ⊆ numberChars := by
  intro c hc
  have hone : 1 < form.base := by cases form <;> decide
  have hbase : form.base ≤ 16 := by cases form <;> decide
  obtain ⟨vs, hvs⟩ := exists_digitsOf hone n.natAbs
  rcases h.mem_or hc with rfl | hdigit
  · simp [numberChars, punctuation]
  · rw [hvs.chars] at hdigit
    obtain ⟨v, hv, rfl⟩ := List.mem_map.1 hdigit
    exact (digitChar_spec ((hvs.lt_base v hv).trans_le hbase)).1

/-- Behind the sign there is a digit, be it the one of the mark. -/
theorem Separated.mark_append_ne_cons {c : Char} (hc : c ∈ punctuation)
    (rest : List Char) : form.mark ++ digits ≠ c :: rest := by
  cases form with
  | decimal | dollar => exact h.ne_cons (by decide) (by decide) hc rest
  | marked =>
    intro hsame
    obtain ⟨rfl, -⟩ := List.cons.inj hsame
    revert hc
    decide

theorem Separated.sign_append_ne_cons (hsign : Signs n sign) (rest : List Char) :
    sign ++ (form.mark ++ digits) ≠ '$' :: rest := by
  cases hsign with
  | none => exact h.mark_append_ne_cons (by decide) rest
  | plus | minus =>
    intro hsame
    cases hsame

end Body

end Signed

section Printing

theorem Separated.refl {ds : List Char} (h : ds ≠ []) : Separated ds ds := by
  induction ds with
  | nil => exact absurd rfl h
  | cons d rest ih =>
    cases rest with
    | nil => exact .single d
    | cons e more => exact .adjacent (ih (by simp))

theorem toDigits_tenPow (k : Nat) :
    Nat.toDigits 10 (10 ^ k) = '1' :: List.replicate k '0' := by
  induction k with
  | zero => rfl
  | succ k ih =>
    have hnext := Nat.toDigits_append_toDigits (b := 10) (n := 10 ^ k) (d := 0) (by decide)
      (Nat.pow_pos (by decide)) (by decide)
    rw [Nat.add_zero, ← Nat.pow_succ'] at hnext
    rw [← hnext, ih, Nat.toDigits_zero, List.cons_append, List.replicate_succ']

theorem length_toDigits_tenPow (k : Nat) : (Nat.toDigits 10 (10 ^ k)).length = k + 1 := by
  rw [toDigits_tenPow, List.length_cons, List.length_replicate]

theorem map_toLower_toDigits (m : Nat) :
    (Nat.toDigits 10 m).map Char.toLower = Nat.toDigits 10 m := by
  have hall : ∀ v < 10, v.digitChar.toLower = v.digitChar := by decide
  obtain ⟨vs, hvs⟩ := exists_digitsOf (show 1 < 10 by decide) m
  rw [hvs.chars, List.map_map]
  exact List.map_congr_left fun v hv => hall v (hvs.lt_base v hv)

/-- The usual text of a number stands for it. -/
theorem writes_toString (n : Int) : Writes .decimal n (toString n) := by
  have hdigits (m : Nat) : Separated (Nat.toDigits 10 m) (Nat.toDigits 10 m) :=
    .refl Nat.toDigits_ne_nil
  cases n with
  | ofNat m =>
    have htext : toString (Int.ofNat m) = String.ofList ([] ++ Nat.toDigits 10 m ++ []) := by
      rw [List.nil_append, List.append_nil]
      exact Nat.toString_eq_ofList_toDigits
    rw [htext]
    exact .intro (by simp) (by simp) (.none (by simp)) (hdigits m) (map_toLower_toDigits m)
  | negSucc m =>
    have htext : toString (Int.negSucc m) =
        String.ofList ([] ++ ('-' :: Nat.toDigits 10 (m + 1)) ++ []) := by
      change "-" ++ toString (m + 1) = _
      rw [Nat.toString_eq_ofList_toDigits]
      apply String.toList_inj.1
      simp
    rw [htext]
    refine .intro (by simp) (by simp) (.minus (by omega)) (hdigits (m + 1)) ?_
    rw [List.map_cons, map_toLower_toDigits]
    rfl

end Printing

section Reading

variable {form : NumberForm} {n : Int} {text : String}

/-- A written number is read as its digits are. -/
theorem Writes.parseNumber_eq_reading (h : Writes form n text) :
    ∃ body, parseNumber text = ((form.reading n.natAbs).map fun _ => n).mapError
      fun flaw => ⟨form.radix, body, flaw⟩ := by
  obtain @⟨before, core, after, sign, digits, hbefore, hafter, hsign, hdigits, hlower⟩ := h
  rw [List.append_assoc, List.append_assoc] at hlower
  have hbody : sign ++ (form.mark ++ digits) ⊆ numberChars :=
    List.append_subset.2 ⟨hsign.subset, List.append_subset.2 ⟨form.mark_subset, hdigits.subset⟩⟩
  have hcore : ∀ c ∈ core, c.toLower ∈ numberChars := by
    intro c hc
    have hmem := List.mem_map_of_mem (f := Char.toLower) hc
    rw [hlower] at hmem
    exact List.append_subset.2 ⟨form.sigil_subset, hbody⟩ hmem
  have hvalue := lower_trim hbefore hafter hcore
  rw [hlower] at hvalue
  have htrim : trimChars isLiteralBlank (sign ++ (form.mark ++ digits)) =
      sign ++ (form.mark ++ digits) :=
    trimChars_of_forall fun c hc => literalBlank_of_numberChars (hbody hc)
  have hread := signed_eq hsign (fun c => hdigits.mark_append_ne_cons) (unsigned_eq hdigits)
  refine ⟨String.ofList (sign ++ (form.mark ++ digits)), ?_⟩
  rw [parseNumber_eq hvalue (hdigits.sign_append_ne_cons hsign), integer, String.toList_ofList,
    htrim, hread]

/-- The refusal of a decimal text tells how many digits it has. -/
theorem message_tooLong (radix : Radix) (body : String) (digits : Nat) :
    BadNumeral.message ⟨radix, body, .tooLong digits⟩ =
      "Exceeds the limit (4300 digits) for integer string conversion: value has " ++
        toString digits ++ " digits; use sys.set_int_max_str_digits() to increase the limit" := by
  have hlimit : "Exceeds the limit (" ++ toString digitLimit ++
      " digits) for integer string conversion: value has " =
        "Exceeds the limit (4300 digits) for integer string conversion: value has " := by
    decide +kernel
  simp only [BadNumeral.message, hlimit]

/--
A number is read back from every text that stands for it: in each of the three forms, with any of
its signs, in any letter case, with single underscores between digits and with white space around
the whole. Only a decimal text of more than 4300 digits is refused, and the message names their
number.
-/
theorem parseNumber_reads_back (h : Writes form n text) :
    ((form = .decimal → (Nat.toDigits 10 n.natAbs).length ≤ 4300) → parseNumber text = .ok n) ∧
      (form = .decimal → 4300 < (Nat.toDigits 10 n.natAbs).length →
        ∃ e, parseNumber text = .error e ∧ e.flaw = .tooLong (Nat.toDigits 10 n.natAbs).length ∧
          e.message = "Exceeds the limit (4300 digits) for integer string conversion: value has " ++
            toString (Nat.toDigits 10 n.natAbs).length ++
            " digits; use sys.set_int_max_str_digits() to increase the limit") := by
  obtain ⟨body, hparse⟩ := h.parseNumber_eq_reading
  unfold NumberForm.reading at hparse
  constructor
  · intro hshort
    rw [hparse, if_neg fun hlong => absurd (hshort hlong.1) (Nat.not_le_of_lt hlong.2)]
    rfl
  · intro hform hlong
    rw [hparse, if_pos ⟨hform, hlong⟩]
    exact ⟨_, rfl, rfl, message_tooLong _ _ _⟩

/-- White space around a sign, a mark in capitals, letters of both cases behind a dollar sign, and
one digit too many. -/
theorem parseNumber_reads_back_mixed :
    (Writes .decimal (-1000) "\t-1_000 " ∧ parseNumber "\t-1_000 " = .ok (-1000)) ∧
      (Writes .marked 0x1F "+0X1f" ∧ parseNumber "+0X1f" = .ok 0x1F) ∧
      (Writes .dollar (-0xDEADBEEF) "$-DEAD_beef\n" ∧
        parseNumber "$-DEAD_beef\n" = .ok (-0xDEADBEEF)) ∧
      Writes .decimal (10 ^ 4300 : Nat) (toString ((10 ^ 4300 : Nat) : Int)) ∧
      ∃ e, parseNumber (toString ((10 ^ 4300 : Nat) : Int)) = .error e ∧
        e.message = "Exceeds the limit (4300 digits) for integer string conversion: value has " ++
          "4301 digits; use sys.set_int_max_str_digits() to increase the limit" := by
  have hblank (c : Char) (hc : isBlank c = true) : ∀ d ∈ [c], isBlank d := by simpa using hc
  have hnone : ∀ d ∈ ([] : List Char), isBlank d := by simp
  have hdecimal : Writes .decimal (-1000) "\t-1_000 " :=
    @Writes.intro .decimal (-1000) ['\t'] ['-', '1', '_', '0', '0', '0'] [' '] ['-'] _
      (hblank '\t' rfl) (hblank ' ' rfl) (.minus (by decide))
      (.apart (.adjacent (.adjacent (.single '0')))) rfl
  have hmarked : Writes .marked 0x1F "+0X1f" :=
    @Writes.intro .marked 0x1F [] ['+', '0', 'X', '1', 'f'] [] ['+'] _
      hnone hnone (.plus (by decide)) (.adjacent (.single 'f')) rfl
  have hdollar : Writes .dollar (-0xDEADBEEF) "$-DEAD_beef\n" :=
    @Writes.intro .dollar (-0xDEADBEEF) [] ['$', '-', 'D', 'E', 'A', 'D', '_', 'b', 'e', 'e', 'f']
      ['\n'] ['-'] _ hnone (hblank '\n' rfl) (.minus (by decide))
      (.adjacent (.adjacent (.adjacent (.apart
        (.adjacent (.adjacent (.adjacent (.single 'f')))))))) rfl
  have hlong := writes_toString ((10 ^ 4300 : Nat) : Int)
  refine ⟨⟨hdecimal, ?_⟩, ⟨hmarked, ?_⟩, ⟨hdollar, ?_⟩, hlong, ?_⟩
  · exact (parseNumber_reads_back hdecimal).1 fun _ => by decide
  · exact (parseNumber_reads_back hmarked).1 fun hform => by cases hform
  · exact (parseNumber_reads_back hdollar).1 fun hform => by cases hform
  · have hdigits : (Nat.toDigits 10 ((10 ^ 4300 : Nat) : Int).natAbs).length = 4301 := by
      rw [Int.natAbs_natCast, length_toDigits_tenPow]
    obtain ⟨e, herror, -, hmessage⟩ :=
      (parseNumber_reads_back hlong).2 rfl (by rw [hdigits]; decide)
    rw [hdigits] at hmessage
    exact ⟨e, herror, hmessage.trans (by decide +kernel)⟩

theorem parseNumber_toString_tenPow {k : Nat} (hk : 4300 ≤ k) :
    ∃ e, parseNumber (toString ((10 ^ k : Nat) : Int)) = .error e := by
  obtain ⟨body, hparse⟩ := (writes_toString ((10 ^ k : Nat) : Int)).parseNumber_eq_reading
  unfold NumberForm.reading at hparse
  rw [Int.natAbs_natCast, length_toDigits_tenPow, if_pos ⟨rfl, by omega⟩] at hparse
  exact ⟨_, hparse⟩

/-- The first number with more than 4300 digits is not read back from its usual text. -/
theorem not_parseNumber_reads_back :
    let n : Int := (10 ^ 4300 : Nat)
    Writes .decimal n (toString n) ∧ parseNumber (toString n) ≠ .ok n := by
  intro n
  refine ⟨writes_toString n, fun hread => ?_⟩
  obtain ⟨e, herror⟩ := parseNumber_toString_tenPow (Nat.le_refl 4300)
  rw [herror] at hread
  cases hread

end Reading

end Disassembly.Text
