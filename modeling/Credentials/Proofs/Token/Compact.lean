import Credentials.Proofs.Bytes.Base64
import Credentials.Token.Compact

/-!
# Tokens cut at their dots

* `splitDots_append`             characters without a dot are the first segment;
* `Compact.segments_text`        the segments of a joined text;
* `Compact.ofText?_of_segments`  three segments are the same for either cut;
* `Compact.segments_of_ofText?`  so they are for a text cut at its last two dots, if no dot is left;
* `Compact.decode_eq_ok_iff`     the octets of a segment are those it is the written form of;
* `Compact.encode_injective`     and no others have this written form.
-/

namespace Credentials

theorem splitDots_of_not_mem {s : List Char} (h : '.' ∉ s) : splitDots s = [s] := by
  induction s with
  | nil => rfl
  | cons c r ih =>
    have hc : c ≠ '.' := fun e => h (e ▸ List.mem_cons_self)
    unfold splitDots
    rw [if_neg hc, ih fun e => h (List.mem_cons_of_mem _ e)]

/-- characters without a dot are the first segment -/
theorem splitDots_append {s : List Char} (h : '.' ∉ s) (r : List Char) :
    splitDots (s ++ '.' :: r) = s :: splitDots r := by
  induction s with
  | nil =>
    show splitDots ('.' :: r) = _
    rw [splitDots, if_pos rfl]
  | cons c s ih =>
    have hc : c ≠ '.' := fun e => h (e ▸ List.mem_cons_self)
    rw [List.cons_append, splitDots, if_neg hc, ih fun e => h (List.mem_cons_of_mem _ e)]

/-- joining two segments or more leaves a dot -/
theorem dot_mem_joinDots (s t : List Char) (ss : List (List Char)) : '.' ∈ joinDots (s :: t :: ss) :=
  List.mem_append_right _ List.mem_cons_self

namespace Compact

theorem toList_text (c : Compact) : c.text.toList
    = c.header.toList ++ '.' :: (c.payload.toList ++ '.' :: c.signature.toList) := by
  unfold text signed
  simp only [String.toList_append, List.append_assoc]
  rfl

/-- the segments of a joined text -/
theorem segments_text {c : Compact} (hh : '.' ∉ c.header.toList) (hp : '.' ∉ c.payload.toList)
    (hs : '.' ∉ c.signature.toList) : segments c.text = [c.header, c.payload, c.signature] := by
  unfold segments
  rw [toList_text, splitDots_append hh, splitDots_append hp, splitDots_of_not_mem hs]
  simp only [List.map_cons, List.map_nil, String.ofList_toList]

/-- a text of three segments is cut the same way at its last two dots -/
theorem ofText?_of_segments {token h p s : String} (e : segments token = [h, p, s]) :
    ofText? token = some ⟨h, p, s⟩ := by
  unfold segments at e
  unfold ofText?
  match splitDots token.toList, e with
  | [x, y, z], e =>
    simp only [List.map_cons, List.map_nil, List.cons.injEq, and_true] at e
    obtain ⟨rfl, rfl, rfl⟩ := e
    rfl

/-- a text cut at its last two dots has three segments, unless a dot is left in the first one -/
theorem segments_of_ofText? {token : String} {c : Compact} (e : ofText? token = some c)
    (h : '.' ∉ c.header.toList) : segments token = [c.header, c.payload, c.signature] := by
  unfold ofText? at e
  cases hr : (splitDots token.toList).reverse with
  | nil => rw [hr] at e; cases e
  | cons s r =>
    cases r with
    | nil => rw [hr] at e; cases e
    | cons p r =>
      cases r with
      | nil => rw [hr] at e; cases e
      | cons x r =>
        rw [hr] at e
        obtain rfl := Option.some.inj e
        have hd : '.' ∉ joinDots (x :: r).reverse := by rwa [String.toList_ofList] at h
        have hc : splitDots token.toList = (x :: r).reverse ++ [p, s] := by
          rw [← List.reverse_reverse (splitDots token.toList), hr]
          simp
        -- a second segment in front would leave a dot
        match hxr : (x :: r).reverse with
        | [] => exact absurd (congrArg List.length hxr) (by simp)
        | [y] =>
          unfold segments
          rw [hc, hxr]
          rfl
        | y :: z :: ys =>
          rw [hxr] at hd
          exact absurd (dot_mem_joinDots y z ys) hd

/-- the octets of a segment are those it is the written form of -/
theorem decode_eq_ok_iff {segment : String} {bs : Bytes} :
    decode segment = .ok bs ↔ segment = encode bs :=
  Base64.decode_utf8_eq_ok_iff Base64.url_lawful

theorem encode_injective {a b : Bytes} (h : encode a = encode b) : a = b := by
  have ha : decode (encode a) = .ok b := decode_eq_ok_iff.2 h
  rw [decode_eq_ok_iff.2 rfl] at ha
  exact Except.ok.inj ha

theorem dot_not_mem_encode (bs : Bytes) : '.' ∉ (encode bs).toList := Base64.dot_not_mem_encode_url bs

end Compact

end Credentials
