import Sumer.Wire.Codec
import Sumer.Wire.Value

set_option relaxedAutoImplicit false
set_option autoImplicit false

/-!
# Documents on lines

A frame is one line of compact JSON and a line feed (`core/wire/src/codec.rs`,
`core/wire/src/envelope.rs`). A line feed never stands in the text of a document, since a string
escapes it and the numbers of the wire are integers; so whatever documents are written, one on each
line, are the frames that the decoder cuts out of the stream, however the stream is chunked.

## Main definitions

* `Sumer.Wire.Json.Writable`: a document of bounded depth, with integers for numbers.
* `Sumer.Wire.stream`: documents, one on each line.
* `Sumer.Wire.Request`: a request envelope.

## Main results

* `Sumer.Wire.Json.Writable.lineFeed_notMem`: a text has no line feed.
* `Sumer.Wire.reference_stream`: the frames of a stream are the documents that were written.
-/

namespace Sumer.Wire

open Sumer.Host

/-! ### Documents without a line feed -/

/-- A document nested at most so many levels deep, whose numbers are integers. -/
def Json.Writable : ℕ → Json → Prop
  | _, .null => True
  | _, .bool _ => True
  | _, .num literal => ∃ n : ℤ, literal = toString n
  | _, .str _ => True
  | 0, .arr _ => False
  | 0, .obj _ => False
  | depth + 1, .arr items => ∀ item ∈ items, Writable depth item
  | depth + 1, .obj members => ∀ m ∈ members, Writable depth m.2

section Writable

variable {depth depth' : ℕ} {j : Json} {items : List Json} {members : List (String × Json)}

/-- A `null` can be written at any depth: nothing is nested in it. -/
@[simp] lemma Json.writable_null : Json.Writable depth .null := by cases depth <;> trivial

/-- A boolean can be written at any depth. -/
@[simp] lemma Json.writable_bool (b : Bool) : Json.Writable depth (.bool b) := by
  cases depth <;> trivial

/-- A string can be written at any depth: its characters are escaped, none of them is refused. -/
@[simp] lemma Json.writable_str (s : String) : Json.Writable depth (.str s) := by
  cases depth <;> trivial

/-- A natural number can be written at any depth: its digits are a number of JSON. -/
@[simp] lemma Json.writable_nat (n : ℕ) : (Json.nat n).Writable depth := by
  have hcast : toString n = toString (n : ℤ) := rfl
  cases depth <;> exact ⟨n, hcast⟩

/-- An array can be written when its items can, one level further down. -/
@[simp] lemma Json.writable_arr :
    Json.Writable (depth + 1) (.arr items) ↔ ∀ item ∈ items, item.Writable depth := .rfl

/-- An object can be written when the values of its members can, one level further down. -/
@[simp] lemma Json.writable_obj :
    Json.Writable (depth + 1) (.obj members) ↔ ∀ m ∈ members, m.2.Writable depth := .rfl

/-- A document may be nested less deep. -/
lemma Json.Writable.mono (h : j.Writable depth) (hle : depth ≤ depth') : j.Writable depth' := by
  induction depth generalizing depth' j with
  | zero =>
    cases j with
    | null | bool | str => simp
    | num literal => cases depth' <;> exact h
    | arr items => exact h.elim
    | obj members => exact h.elim
  | succ depth ih =>
    obtain ⟨depth', rfl⟩ : ∃ k, depth' = k + 1 := ⟨depth' - 1, by omega⟩
    cases j with
    | null | bool | str => simp
    | num literal => exact h
    | arr items => exact fun item hitem => ih (h item hitem) (by omega)
    | obj members => exact fun m hm => ih (h m hm) (by omega)

/-- A member that may be left out. -/
lemma writable_optional {α : Type} {key : String} {toJson : α → Json} {value : Option α} :
    (∀ m ∈ optional key toJson value, m.2.Writable depth) ↔
      ∀ x, value = some x → (toJson x).Writable depth := by
  cases value <;> simp [optional]

/-- Sorting the keys changes nothing.

**Proof sketch.** Induction on the depth. A leaf is its own value, the items of an array are
writable one level down, and the members of an object are only put in another order. -/
lemma Json.Writable.value (h : j.Writable depth) : j.value.Writable depth := by
  induction depth generalizing j with
  | zero => cases j <;> exact h
  | succ depth ih =>
    cases j with
    | null | bool | str | num => exact h
    | arr items =>
      have hitems (items : List Json) (h : ∀ item ∈ items, item.Writable depth) :
          ∀ item ∈ itemValues items, item.Writable depth := by
        induction items with
        | nil => exact fun item hitem => absurd hitem List.not_mem_nil
        | cons first items ihitems =>
          intro item hitem
          rcases List.mem_cons.mp hitem with rfl | hitem
          · exact ih (h first List.mem_cons_self)
          · exact ihitems (fun x hx => h x (List.mem_cons_of_mem _ hx)) item hitem
      exact hitems items h
    | obj members =>
      have hmembers (members : List (String × Json)) (h : ∀ m ∈ members, m.2.Writable depth) :
          ∀ m ∈ memberValues members, m.2.Writable depth := by
        induction members with
        | nil => exact fun m hm => absurd hm List.not_mem_nil
        | cons first members ihmembers =>
          intro m hm
          rcases List.mem_cons.mp hm with rfl | hm
          · exact ih (h first List.mem_cons_self)
          · exact ihmembers (fun x hx => h x (List.mem_cons_of_mem _ hx)) m hm
      exact fun m hm => hmembers members h m ((Record.toMap_spec _).2 m hm)

/-- A string is written without a line feed.

**Proof sketch.** A line feed is escaped as a backslash and a letter, the other control characters
as six characters without one, and what is left as it is is no control character. -/
lemma lineFeed_notMem_quoted (s : String) : '\n' ∉ quoted s := by
  have hescaped (ch : Char) : '\n' ∉ escaped ch := by
    have hdigit : ∀ n < 16, '\n' ≠ Nat.digitChar n := by decide
    unfold escaped
    split_ifs with hquote h8 h9 h10 h12 h13 hcontrol
    · rcases hquote with rfl | rfl <;> decide
    · decide
    · decide
    · decide
    · decide
    · decide
    · have hhigh := hdigit (ch.toNat / 16) (by omega)
      have hlow := hdigit (ch.toNat % 16) (by omega)
      simp only [List.mem_cons, List.not_mem_nil, or_false, not_or]
      exact ⟨by decide, by decide, by decide, by decide, hhigh, hlow⟩
    · intro h
      exact h10 (by rw [← List.mem_singleton.mp h]; rfl)
  simp only [quoted, List.mem_append, List.mem_singleton, List.mem_flatMap, not_or, not_exists,
    not_and]
  exact ⟨⟨by decide, fun ch _ => hescaped ch⟩, by decide⟩

/-- A number is written without a line feed. -/
lemma lineFeed_notMem_int (n : ℤ) : '\n' ∉ (toString n).toList := by
  have hdigits (k : ℕ) : '\n' ∉ (toString k).toList := by
    rw [show (toString k).toList = Nat.toDigits 10 k from Nat.toList_repr]
    intro h
    exact absurd (Nat.isDigit_of_mem_toDigits (by decide) le_rfl h) (by decide)
  cases n with
  | ofNat k => exact hdigits k
  | negSucc k =>
    have htext : (toString (Int.negSucc k)).toList = '-' :: (toString (k + 1)).toList := by
      show ("-" ++ toString (k + 1)).toList = _
      rw [String.toList_append]
      rfl
    rw [htext, List.mem_cons, not_or]
    exact ⟨by decide, hdigits (k + 1)⟩

/-- **A text has no line feed.**

**Proof sketch.** Induction on the depth. A leaf is written without a line feed: a number in digits,
and a string escaped (`lineFeed_notMem_quoted`). What an array or an object is written with besides
its parts are brackets, commas, colons and quoted keys, and the parts have none by the induction
hypothesis. -/
lemma Json.Writable.lineFeed_notMem (h : j.Writable depth) : '\n' ∉ j.chars := by
  have hliteral {literal : String} (h : ∃ n : ℤ, literal = toString n) :
      '\n' ∉ (Json.num literal).chars := by
    obtain ⟨n, rfl⟩ := h
    rw [Json.chars]
    exact lineFeed_notMem_int n
  have hbool (b : Bool) : '\n' ∉ (Json.bool b).chars := by
    rw [Json.chars]
    cases b <;> decide
  have hnull : '\n' ∉ Json.null.chars := by
    rw [Json.chars]
    decide
  have hstr (s : String) : '\n' ∉ (Json.str s).chars := by
    rw [Json.chars]
    exact lineFeed_notMem_quoted s
  induction depth generalizing j with
  | zero =>
    cases j with
    | null => exact hnull
    | bool b => exact hbool b
    | str s => exact hstr s
    | num literal => exact hliteral h
    | arr items => exact h.elim
    | obj members => exact h.elim
  | succ depth ih =>
    cases j with
    | null => exact hnull
    | bool b => exact hbool b
    | str s => exact hstr s
    | num literal => exact hliteral h
    | arr items =>
      have hitems (items : List Json) (h : ∀ item ∈ items, item.Writable depth) :
          '\n' ∉ itemsChars items := by
        induction items with
        | nil =>
          rw [itemsChars]
          exact List.not_mem_nil
        | cons item rest ihrest =>
          have hitem := ih (h item List.mem_cons_self)
          cases rest with
          | nil => rwa [itemsChars]
          | cons next rest =>
            rw [itemsChars]
            simp only [List.mem_append, List.mem_singleton, not_or]
            exact ⟨⟨hitem, by decide⟩, ihrest fun x hx => h x (List.mem_cons_of_mem _ hx)⟩
      rw [Json.chars]
      simp only [List.mem_append, List.mem_singleton, not_or]
      exact ⟨⟨by decide, hitems items h⟩, by decide⟩
    | obj members =>
      have hmembers (members : List (String × Json)) (h : ∀ m ∈ members, m.2.Writable depth) :
          '\n' ∉ membersChars members := by
        induction members with
        | nil =>
          rw [membersChars]
          exact List.not_mem_nil
        | cons m rest ihrest =>
          have hkey := lineFeed_notMem_quoted m.1
          have hvalue := ih (h m List.mem_cons_self)
          cases rest with
          | nil =>
            rw [membersChars]
            simp only [List.mem_append, List.mem_singleton, not_or]
            exact ⟨⟨hkey, by decide⟩, hvalue⟩
          | cons next rest =>
            rw [membersChars]
            simp only [List.mem_append, List.mem_singleton, not_or]
            exact ⟨⟨⟨⟨hkey, by decide⟩, hvalue⟩, by decide⟩,
              ihrest fun x hx => h x (List.mem_cons_of_mem _ hx)⟩
      rw [Json.chars]
      simp only [List.mem_append, List.mem_singleton, not_or]
      exact ⟨⟨by decide, hmembers members h⟩, by decide⟩

end Writable

/-! ### The stream -/

/-- Documents as they are written: each on a line of its own. -/
def stream (documents : List Json) : List UInt8 :=
  documents.flatMap fun j => asBytes j.text ++ [LF]

/-- The only character with the byte of a line feed is the line feed.

**Proof sketch.** An ASCII character is its own byte, and is a line feed only if that byte is. The
bytes of any other character are all above 127. -/
lemma lf_notMem_asBytes {s : String} (h : '\n' ∉ s.toList) : LF ∉ asBytes s := by
  have hbyte {n : ℕ} (hn : n < 256) (heq : LF = UInt8.ofNat n) : n = 10 := by
    have hnat := congrArg UInt8.toNat heq
    rw [UInt8.toNat_ofNat_of_lt' (show n < UInt8.size from hn)] at hnat
    exact hnat.symm
  rw [asBytes, List.mem_flatMap]
  rintro ⟨ch, hch, hmem⟩
  unfold String.utf8EncodeChar at hmem
  dsimp only at hmem
  -- all bytes of a character that is not ASCII are larger than any that is
  split_ifs at hmem with hascii
  · have hval : ch.val.toNat = ('\n' : Char).val.toNat :=
      hbyte (by omega) (List.mem_singleton.mp hmem)
    have hfeed : ch = '\n' := Char.ext (UInt32.toNat_inj.mp hval)
    exact h (hfeed ▸ hch)
  all_goals simp only [List.mem_cons, List.not_mem_nil, or_false] at hmem
  · rcases hmem with hmem | hmem <;> exact absurd (hbyte (by omega) hmem) (by omega)
  · rcases hmem with hmem | hmem | hmem <;> exact absurd (hbyte (by omega) hmem) (by omega)
  · rcases hmem with hmem | hmem | hmem | hmem <;> exact absurd (hbyte (by omega) hmem) (by omega)

/-- **The frames of a stream are the documents that were written**, when each of them fits a frame
and is read as a document.

**Proof sketch.** Induction on the documents. The first one ends at the first line feed of the
stream, since it has none itself; it is short enough, it decodes to its own text, and the rest of
the stream is that of the other documents. -/
lemma reference_stream {t : FrameText} (hutf8 : ∀ s, t.fromUtf8 (asBytes s) = some s)
    {documents : List Json} (hline : ∀ j ∈ documents, '\n' ∉ j.chars)
    (hjson : ∀ j ∈ documents, t.isJson j.text = true)
    (hsize : ∀ j ∈ documents, j.size ≤ MAX_FRAME_BYTES) :
    reference t (stream documents) = ⟨documents.map Json.text, none, 0⟩ := by
  rw [reference]
  induction documents with
  | nil => simp [stream, judge]
  | cons j documents ih =>
    have hlf : ∀ b ∈ asBytes j.text, (b == LF) = false := by
      intro b hb
      rw [beq_eq_false_iff_ne]
      rintro rfl
      exact lf_notMem_asBytes (by
        rw [Json.text, String.toList_ofList]
        exact hline j List.mem_cons_self) hb
    have hcut : (stream (j :: documents)).splitOn LF =
        asBytes j.text :: (stream documents).splitOn LF := by
      rw [stream, List.flatMap_cons, List.append_assoc, List.singleton_append,
        List.splitOn_eq_splitOnP, List.splitOnP_append_cons_of_forall_mem hlf _ (by simp),
        ← List.splitOn_eq_splitOnP]
      rfl
    have hframe : decodeFrame t (asBytes j.text) = .ok j.text := by
      simp [decodeFrame, hutf8, hjson j List.mem_cons_self]
    have hshort : ¬ (asBytes j.text).length > MAX_FRAME_BYTES := by
      rw [Json.length_text]
      exact not_lt.mpr (hsize j List.mem_cons_self)
    have hrest : (stream documents).splitOn LF ≠ [] := List.splitOnP_ne_nil _ _
    rw [hcut, judge, if_neg hshort, if_neg hrest, hframe,
      ih (fun x hx => hline x (List.mem_cons_of_mem _ hx))
        (fun x hx => hjson x (List.mem_cons_of_mem _ hx))
        (fun x hx => hsize x (List.mem_cons_of_mem _ hx))]
    rfl

/-! ### Requests -/

/-- A request envelope. -/
structure Request where
  id : ℕ
  op : String
  params : Json

/-- A request is an object with an `id`, an `op`, and `params` that may be left out. -/
def Request.decode (j : Json) : Except DecodeError Request := do
  let members ← object "a request envelope: an object with `id`, `op`, and optional `params`"
    ["id", "op", "params"] j
  let id ← required members "id" (unsigned 64)
  let op ← required members "op" string
  let params ← defaulted members "params" .null fun j => .ok j
  return { id, op, params }

/-- A request, as `build_frame` writes it. -/
def Request.toJson (r : Request) : Json :=
  .obj [("id", Json.nat r.id), ("op", .str r.op), ("params", r.params)]

/-- A request that has an id is read back. -/
lemma Request.decode_toJson (r : Request) (hid : r.id < 2 ^ 64) : decode r.toJson = .ok r := by
  have hmembers (expecting : String) : object expecting ["id", "op", "params"] r.toJson =
      .ok [("id", Json.nat r.id), ("op", .str r.op), ("params", r.params)] :=
    object_of_sublist (.refl _) (by decide)
  rw [decode, hmembers]
  simp [required, defaulted, unsigned_nat hid, string, bind, Except.bind, pure, Except.pure]

/-- The value of a request has the value of its params. -/
lemma Request.decode_value {j : Json} {r : Request} (h : decode j = .ok r) :
    decode j.value = .ok { r with params := r.params.value } := by
  simp only [decode, except_bind_eq_ok] at h ⊢
  obtain ⟨members, hmembers, id, hid, op, hop, params, hparams, hr⟩ := h
  obtain ⟨members', hmembers', hv⟩ := object_value hmembers
  cases hr
  refine ⟨members', hmembers', id, required_value hv (fun j => readsValue_unsigned 64 j _) hid, op,
    required_value hv (fun j => readsValue_string j _) hop, params.value, ?_, rfl⟩
  rcases defaulted_eq_ok.mp hparams with ⟨hnone, rfl⟩ | ⟨j, hj, hparams⟩
  · exact defaulted_eq_ok.mpr (.inl ⟨by rw [hv, hnone]; rfl, rfl⟩)
  · cases hparams
    exact defaulted_eq_ok.mpr (.inr ⟨params.value, by rw [hv, hj]; rfl, rfl⟩)

end Sumer.Wire
