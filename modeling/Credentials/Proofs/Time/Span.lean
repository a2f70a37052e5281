import Credentials.Time.Span
import Mathlib.Data.List.Basic

/-!
# Lengths of time read from their written form

* `TimeUnit.written`        the name of a unit behind a number;
* `Span.entry`              a number of units as it is written;
* `Span.amounts`            how many of each unit a length is written with;
* `Span.readFrom?_entries`  what the reader makes of entries is the sum of their amounts;
* `Span.add_amounts`        the amounts of a length add up to it, and no sum on the way is too large;
* `Span.read?_text`         a written length is read again.

The reader adds up whole units one after another and checks every product and every sum. None of them
is above the length itself, so it is enough to know where the sum ends.
-/

namespace Credentials

namespace TimeUnit

/-- the name of a unit, and what stands behind it for more than one -/
def mark : TimeUnit → String × String
  | .nanosecond => ("ns", "")
  | .microsecond => ("us", "")
  | .millisecond => ("ms", "")
  | .second => ("s", "")
  | .minute => ("m", "")
  | .hour => ("h", "")
  | .day => ("day", "s")
  | .week => ("week", "s")
  | .month => ("month", "s")
  | .year => ("year", "s")

/-- the name of a unit behind a number -/
def written (unit : TimeUnit) (n : Nat) : List Char :=
  (unit.mark.1 ++ (if 1 < n then unit.mark.2 else "")).toList

theorem ofName?_written (unit : TimeUnit) (n : Nat) : ofName? (unit.written n) = some unit := by
  unfold written
  by_cases h : 1 < n
  · rw [if_pos h]
    cases unit <;> rfl
  · rw [if_neg h]
    cases unit <;> rfl

end TimeUnit

namespace Span

/-! ## one number and its unit -/

/-- a character that can only be a letter of a unit -/
def isLetter (c : Char) : Bool := (digit? c).isNone && !Text.isBlank c && isUnitLetter c

/-- a number of units as it is written -/
def entry (a : Nat × TimeUnit) : List Char := Nat.toDigits 10 a.1 ++ a.2.written a.1

/-- a name is not empty, and has nothing but letters -/
theorem written_eq_cons (unit : TimeUnit) (n : Nat) :
    ∃ c cs, unit.written n = c :: cs ∧ isLetter c = true ∧ cs.all isLetter = true := by
  unfold TimeUnit.written
  by_cases h : 1 < n
  · rw [if_pos h]
    cases unit <;> exact ⟨_, _, rfl, rfl, rfl⟩
  · rw [if_neg h]
    cases unit <;> exact ⟨_, _, rfl, rfl, rfl⟩

variable {s t : Span} {r q : Reading} {c : Char} {cs : List Char} {n d : Nat}

theorem of_isLetter (h : isLetter c = true) :
    digit? c = none ∧ Text.isBlank c = false ∧ isUnitLetter c = true := by
  unfold isLetter at h
  rw [Bool.and_eq_true, Bool.and_eq_true, Option.isNone_iff_eq_none, Bool.not_eq_true'] at h
  exact ⟨h.1.1, h.1.2, h.2⟩

theorem readFrom?_of_step (h : s.step? r c = some (t, q)) :
    readFrom? s r (c :: cs) = readFrom? t q cs := by
  rw [readFrom?, h]
  rfl

theorem step?_gap (first : Bool) (h : digit? c = some d) :
    s.step? (.gap first) c = some (s, .number d) := by
  unfold step?
  rw [h]

theorem step?_number (h : digit? c = some d) (hn : n * 10 + d < wordLimit) :
    s.step? (.number n) c = some (s, .number (n * 10 + d)) := by
  unfold step?
  rw [h]
  show (fits? (n * 10 + d) >>= _) = _
  rw [fits?, if_pos hn]
  rfl

theorem step?_number_letter (h : isLetter c = true) :
    s.step? (.number n) c = some (s, .unit n none [c]) := by
  obtain ⟨hd, hb, hl⟩ := of_isLetter h
  unfold step?
  simp only [hd, hb, hl, Bool.false_eq_true, if_false, if_true]

theorem step?_unit_letter {name : List Char} (h : isLetter c = true) :
    s.step? (.unit n none name) c = some (s, .unit n none (c :: name)) := by
  obtain ⟨hd, hb, hl⟩ := of_isLetter h
  unfold step?
  simp only [hd, hb, hl, Bool.false_eq_true, if_false, if_true]

/-- a blank ends an item -/
theorem step?_unit_blank {name : List Char} :
    s.step? (.unit n none name) ' ' = (s.addItem? n none name).map fun s => (s, .gap false) := by
  have hd : digit? ' ' = none := by decide
  have hb : Text.isBlank ' ' = true := by decide
  unfold step?
  simp only [hd, hb, if_true]
  cases s.addItem? n none name <;> rfl

theorem digit?_digitChar (h : d < 10) : digit? (Nat.digitChar d) = some d := by
  unfold digit?
  rw [Nat.isDigit_digitChar, decide_eq_true h, if_pos rfl, Nat.toNat_digitChar_sub_48_of_lt_ten h]

/-- the digits of a number -/
theorem readFrom?_digits (s : Span) (first : Bool) (h : n < wordLimit) (cs : List Char) :
    readFrom? s (.gap first) (Nat.toDigits 10 n ++ cs) = readFrom? s (.number n) cs := by
  -- the last digit comes off the end, so what follows has to vary
  induction n using Nat.strongRecOn generalizing cs with
  | ind n ih =>
    by_cases hn : n < 10
    · rw [Nat.toDigits_of_lt_base hn]
      exact readFrom?_of_step (step?_gap first (digit?_digitChar hn))
    · have h10 : 10 ≤ n := Nat.not_lt.1 hn
      have hsum : n / 10 * 10 + n % 10 = n := Nat.div_add_mod' n 10
      have hlast := digit?_digitChar (Nat.mod_lt n (by decide : 0 < 10))
      rw [Nat.toDigits_of_base_le (by decide) h10, List.append_assoc,
        ih (n / 10) (by omega) (by omega), List.singleton_append,
        readFrom?_of_step (step?_number hlast (by omega)), hsum]

theorem readFrom?_letters {ls : List Char} (h : ls.all isLetter = true) (name cs : List Char) :
    readFrom? s (.unit n none name) (ls ++ cs) = readFrom? s (.unit n none (ls.reverse ++ name)) cs := by
  induction ls generalizing name with
  | nil => rfl
  | cons c ls ih =>
    obtain ⟨hc, hls⟩ := Bool.and_eq_true_iff.1 h
    rw [List.cons_append, readFrom?_of_step (step?_unit_letter hc), ih hls, List.reverse_cons,
      List.append_assoc]
    rfl

/-- a number and the name of its unit -/
theorem readFrom?_entry (s : Span) (first : Bool) {a : Nat × TimeUnit} (h : a.1 < wordLimit)
    (cs : List Char) : readFrom? s (.gap first) (entry a ++ cs)
      = readFrom? s (.unit a.1 none (a.2.written a.1).reverse) cs := by
  obtain ⟨c, ls, hw, hc, hls⟩ := written_eq_cons a.2 a.1
  unfold entry
  rw [List.append_assoc, readFrom?_digits s first h, hw, List.cons_append,
    readFrom?_of_step (step?_number_letter hc), readFrom?_letters hls, List.reverse_cons]

theorem addItem?_written (s : Span) (a : Nat × TimeUnit) :
    s.addItem? a.1 none (a.2.written a.1).reverse = s.addUnits? a.1 a.2 := by
  unfold addItem?
  rw [List.reverse_reverse, TimeUnit.ofName?_written]
  show (s.addUnits? a.1 a.2 >>= some) = _
  cases s.addUnits? a.1 a.2 <;> rfl

/-! ## many of them -/

/-- what is written with one blank between any two numbers of units is read as their sum -/
theorem readFrom?_entries (s : Span) (first : Bool) {as : List (Nat × TimeUnit)} (hne : as ≠ [])
    (h : ∀ a ∈ as, a.1 < wordLimit) :
    readFrom? s (.gap first) ([' '].intercalate (as.map entry))
      = as.foldlM (fun s a => s.addUnits? a.1 a.2) s := by
  induction as generalizing s first with
  | nil => exact absurd rfl hne
  | cons a as ih =>
    have ha := h a List.mem_cons_self
    cases as with
    | nil =>
      have hread := readFrom?_entry s first ha []
      rw [List.append_nil] at hread
      rw [List.map_singleton, List.intercalate_singleton, hread, readFrom?, List.foldlM_cons,
        addItem?_written]
      cases s.addUnits? a.1 a.2 <;> rfl
    | cons b as =>
      rw [List.map_cons, List.map_cons, List.intercalate_cons_cons, List.append_assoc,
        readFrom?_entry s first ha, List.singleton_append, readFrom?, step?_unit_blank, addItem?_written,
        List.foldlM_cons]
      cases s.addUnits? a.1 a.2 with
      | none => rfl
      | some t => exact ih t false (List.cons_ne_nil b as) fun x hx => h x (List.mem_cons_of_mem _ hx)

/-- what numbers of units come to, where `size` says what a unit counts -/
def sumOf (size : TimeUnit → Nat) : List (Nat × TimeUnit) → Nat
  | [] => 0
  | (n, unit) :: as => n * size unit + sumOf size as

theorem sumOf_nil (size : TimeUnit → Nat) : sumOf size [] = 0 := rfl

theorem sumOf_cons (size : TimeUnit → Nat) (n : Nat) (unit : TimeUnit) (as : List (Nat × TimeUnit)) :
    sumOf size ((n, unit) :: as) = n * size unit + sumOf size as := rfl

theorem addUnits?_eq {unit : TimeUnit} (hs : s.seconds + n * unit.seconds = t.seconds)
    (hn : s.nanos + n * unit.nanos = t.nanos) : s.addUnits? n unit = some t := by
  have hlt := t.seconds_lt
  have hnanos := t.nanos_lt
  have hword : nanosPerSecond < wordLimit := by decide
  have hdiv : t.nanos / nanosPerSecond = 0 := Nat.div_eq_of_lt hnanos
  unfold addUnits? extend?
  rw [fits?, if_pos (by omega), fits?, if_pos (by omega)]
  show (fits? (s.nanos + n * unit.nanos) >>= fun m => of? (s.seconds + n * unit.seconds) m) = _
  rw [fits?, if_pos (by omega), hs, hn]
  show of? t.seconds t.nanos = some t
  unfold of?
  rw [dif_pos (by rw [hdiv]; exact hlt)]
  refine congrArg some (Span.ext ?_ (Nat.mod_eq_of_lt hnanos))
  show t.seconds + t.nanos / nanosPerSecond = t.seconds
  rw [hdiv, Nat.add_zero]

/-- the sum is `t`, if the seconds and the nanoseconds say so: no sum on the way is larger -/
theorem foldlM_addUnits? {as : List (Nat × TimeUnit)}
    (hs : s.seconds + sumOf TimeUnit.seconds as = t.seconds)
    (hn : s.nanos + sumOf TimeUnit.nanos as = t.nanos) :
    as.foldlM (fun s a => s.addUnits? a.1 a.2) s = some t := by
  induction as generalizing s with
  | nil => exact congrArg some (Span.ext hs hn)
  | cons a as ih =>
    rw [sumOf_cons, ← Nat.add_assoc] at hs hn
    have hlt := t.seconds_lt
    have hnanos := t.nanos_lt
    let u : Span := ⟨s.seconds + a.1 * a.2.seconds, s.nanos + a.1 * a.2.nanos, by omega, by omega⟩
    rw [List.foldlM_cons, addUnits?_eq (t := u) rfl rfl]
    exact ih (s := u) hs hn

/-! ## a length -/

/-- how many of each unit a length is written with -/
def amounts (s : Span) : List (Nat × TimeUnit) :=
  let inYear := s.seconds % 31557600
  let inMonth := inYear % 2630016
  let inDay := inMonth % 86400
  [(s.seconds / 31557600, .year), (inYear / 2630016, .month), (inMonth / 86400, .day),
    (inDay / 3600, .hour), (inDay % 3600 / 60, .minute), (inDay % 60, .second),
    (s.nanos / 1000000, .millisecond), (s.nanos / 1000 % 1000, .microsecond),
    (s.nanos % 1000, .nanosecond)]

/-- those of which there are any -/
def parts (s : Span) : List (Nat × TimeUnit) := s.amounts.filter fun a => 0 < a.1

/-- the amounts of a length add up to it -/
theorem sumOf_amounts (s : Span) :
    sumOf TimeUnit.seconds s.amounts = s.seconds ∧ sumOf TimeUnit.nanos s.amounts = s.nanos := by
  unfold amounts
  simp only [sumOf_cons, sumOf_nil]
  constructor
  · unfold TimeUnit.seconds
    dsimp only
    omega
  · unfold TimeUnit.nanos
    dsimp only
    omega

theorem sumOf_filter (size : TimeUnit → Nat) (as : List (Nat × TimeUnit)) :
    sumOf size (as.filter fun a => 0 < a.1) = sumOf size as := by
  induction as with
  | nil => rfl
  | cons a as ih =>
    rw [sumOf_cons, ← ih]
    by_cases h : 0 < a.1
    · rw [List.filter_cons_of_pos (by simpa using h), sumOf_cons]
    · rw [List.filter_cons_of_neg (by simpa using h), Nat.eq_zero_of_not_pos h, Nat.zero_mul, Nat.zero_add]

theorem add_amounts (s : Span) :
    s.parts.foldlM (fun s a => s.addUnits? a.1 a.2) zero = some s := by
  obtain ⟨hs, hn⟩ := s.sumOf_amounts
  refine foldlM_addUnits? ?_ ?_
  · rw [parts, sumOf_filter, hs]
    exact Nat.zero_add _
  · rw [parts, sumOf_filter, hn]
    exact Nat.zero_add _

theorem lt_of_mem_parts (s : Span) : ∀ a ∈ s.parts, a.1 < wordLimit := by
  intro a ha
  have hs := s.seconds_lt
  have hn : s.nanos < wordLimit := Nat.lt_trans s.nanos_lt (by decide)
  have hm := (List.mem_filter.1 ha).1
  simp only [amounts, List.mem_cons, List.not_mem_nil, or_false] at hm
  rcases hm with rfl | rfl | rfl | rfl | rfl | rfl | rfl | rfl | rfl <;> dsimp only <;> omega

/-- nothing is left out but zeros -/
theorem parts_ne_nil (h : s.isZero = false) : s.parts ≠ [] := by
  intro hnil
  obtain ⟨hs, hn⟩ := s.sumOf_amounts
  have hzero : ∀ size, sumOf size s.amounts = 0 := fun size => by
    rw [← sumOf_filter, ← parts, hnil]
    rfl
  rw [hzero] at hs hn
  unfold isZero at h
  rw [← hs, ← hn] at h
  cases h

/-- the items of a length are the entries of its amounts -/
theorem toList_items (s : Span) : s.items.map String.toList = s.parts.map entry := by
  have hitems : s.items = s.amounts.flatMap fun a => item a.1 a.2.mark.1 a.2.mark.2 := by
    simp only [items, amounts, List.flatMap_cons, List.flatMap_nil, List.append_assoc, List.append_nil,
      TimeUnit.mark]
  have hone : ∀ a : Nat × TimeUnit, (item a.1 a.2.mark.1 a.2.mark.2).map String.toList
      = ([a].filter fun a => 0 < a.1).map entry := by
    intro a
    unfold item entry TimeUnit.written
    by_cases h : a.1 = 0
    · simp [h]
    · simp [h, Nat.pos_of_ne_zero h]
  rw [hitems, parts]
  induction s.amounts with
  | nil => rfl
  | cons a as ih =>
    rw [List.flatMap_cons, List.map_append, ih, hone, ← List.map_append, ← List.filter_append]
    rfl

/-- a written length is read again -/
theorem read?_text (s : Span) : read? s.text = some s := by
  unfold text
  cases hz : s.isZero with
  | true =>
    rw [if_pos rfl]
    unfold isZero at hz
    obtain ⟨hs, hn⟩ := Bool.and_eq_true_iff.1 hz
    have hzero : s = zero := Span.ext (beq_iff_eq.1 hs) (beq_iff_eq.1 hn)
    rw [hzero]
    rfl
  | false =>
    rw [if_neg Bool.false_ne_true]
    have hread : readFrom? zero (.gap true) (" ".intercalate s.items).toList = some s := by
      rw [String.toList_intercalate, toList_items]
      exact (readFrom?_entries zero true (parts_ne_nil hz) s.lt_of_mem_parts).trans s.add_amounts
    unfold read?
    split
    · -- a zero without a unit is not read in this way
      rename_i h
      rw [h] at hread
      cases hread
    · exact hread

end Span

end Credentials
