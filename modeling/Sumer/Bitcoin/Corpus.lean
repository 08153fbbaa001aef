import Sumer.Bitcoin.Load
import Sumer.Bitcoin.Source

set_option relaxedAutoImplicit false
set_option autoImplicit false

/-!
# A corpus on disk

What a response comes to, and the two ways to get one back: from the network, recording it, and
from a directory of recorded ones (`adapters/bitcoin/src/source.rs`). A directory is a function from
file names to what is read of the file. An error body is capped when it is read, and once more when
it is replayed.

## Main definitions

* `Sumer.Bitcoin.classify`: status and body to outcome.
* `Sumer.Bitcoin.recordResponse`, `Sumer.Bitcoin.replayGet`: the two directions.

## Main results

* `Sumer.Bitcoin.capChars_capChars_iff`: which bodies are capped once and for all.
* `Sumer.Bitcoin.corpus_replays_iff`: when a recorded corpus replays what it recorded.
-/

namespace Sumer.Bitcoin

open Sumer.Wire

/-- The integers of `u16`. -/
abbrev U16 := Fin (2 ^ 16)

/-- Backoff used when a 429 carries no usable `Retry-After`. -/
def DEFAULT_RETRY_AFTER_MS : U64 := 60000

/-- How much of a provider's error body is kept. -/
def MAX_DETAIL_BODY : ℕ := 4096

/-- The whole characters within a number of bytes. -/
def takeBytes : ℕ → List Char → List Char
  | _, [] => []
  | n, ch :: rest => if ch.utf8Size ≤ n then ch :: takeBytes (n - ch.utf8Size) rest else []

/-- The characters of a body that is capped. -/
def capChars (chars : List Char) : List Char :=
  if byteCount chars ≤ MAX_DETAIL_BODY then chars
  else takeBytes MAX_DETAIL_BODY chars ++ (" [truncated: ".toList ++
    (Nat.toDigits 10 (byteCount chars) ++ " bytes]".toList))

/-- `cap_body`: truncates an error body, on a character boundary, and says so. -/
def capBody (body : String) : String := String.ofList (capChars body.toList)

/-- `FetchError::detail`. -/
def FetchError.detail : FetchError → ProviderDetail
  | .rateLimited _ detail => detail
  | .unavailable detail => detail

/-- Status to outcome. -/
def classify (status : U16) (body : String) (retryAfterMs : Option U64) (path : String) :
    Except FetchError Fetched :=
  if status.val = 200 then .ok (.body body)
  else if status.val = 404 then .ok .notFound
  else
    let detail (code : String) : ProviderDetail :=
      { code := code
        message := path ++ ": HTTP " ++ toString status.val
        raw := .obj [("body", .str (capBody body)), ("status", .nat status.val)] }
    if status.val = 429 then
      .error (.rateLimited (retryAfterMs.getD DEFAULT_RETRY_AFTER_MS) (detail "http_429"))
    else .error (.unavailable (detail ("http_" ++ toString status.val)))

/-! ### The directory -/

/-- The corpus file name for a request path: leading slashes dropped, the others replaced. -/
def corpusName (path : String) : String :=
  String.ofList ((path.toList.dropWhile (· == '/')).map fun ch => if ch == '/' then '_' else ch)

/-- What is read of the files of a directory. -/
abbrev Corpus := String → Option String

/-- White space, as `str::trim` removes it. -/
def isWhitespace (ch : Char) : Bool :=
  (0x9 ≤ ch.toNat && ch.toNat ≤ 0xd) || (0x2000 ≤ ch.toNat && ch.toNat ≤ 0x200a) ||
    [0x20, 0x85, 0xa0, 0x1680, 0x2028, 0x2029, 0x202f, 0x205f, 0x3000].contains ch.toNat

/-- `str::trim`. -/
def trim (text : List Char) : List Char :=
  ((text.dropWhile isWhitespace).reverse.dropWhile isWhitespace).reverse

/-- `str::parse::<u16>`: a `u64` that is small enough. -/
def parseU16 (text : List Char) : Option U16 :=
  (parseU64 text).bind fun n => if h : n.val < 2 ^ 16 then some ⟨n.val, h⟩ else none

/-- The response that a directory holds for a path. -/
def replayGet (dirName : String) (dir : Corpus) (path : String) : Except FetchError Fetched :=
  let json := corpusName path ++ ".json"
  let statusFile := corpusName path ++ ".status"
  match dir json with
  | some body => .ok (.body body)
  | none =>
    match dir statusFile with
    | some raw =>
      let parts := (splitOnce ['\n'] raw.toList).getD (raw.toList, [])
      match parseU16 (trim parts.1) with
      | some status => classify status (String.ofList parts.2) none path
      | none =>
        .error (.ofCode "corpus_malformed"
          (dirName ++ "/" ++ statusFile ++ ": first line is not an HTTP status") .null)
    | none =>
      .error (.ofCode "corpus_missing" (path ++ ": no recorded response (" ++ dirName ++ "/" ++
        json ++ " or " ++ dirName ++ "/" ++ statusFile ++ ")") .null)

/-- `Value::as_u64`. -/
def Json.asU64 : Json → Option U64
  | .num literal => parseU64 literal.toList
  | _ => none

/-- The directory with a response recorded. -/
def recordResponse (dir : Corpus) (path : String) (out : Except FetchError Fetched) : Corpus :=
  match out with
  | .ok (.body body) => Function.update dir (corpusName path ++ ".json") (some body)
  | .ok .notFound => Function.update dir (corpusName path ++ ".status") (some "404\n")
  | .error e =>
    let body := ((Json.get e.detail.raw "body").bind Json.asStr).getD ""
    match (Json.get e.detail.raw "status").bind Json.asU64 with
    | some status =>
      Function.update dir (corpusName path ++ ".status")
        (some (toString status.val ++ "\n" ++ body))
    -- a failure without a status has nothing faithful to record
    | none => dir

/-! ### A recorded run -/

/-- A request, and the answer to it. -/
structure Exchange where
  path : String
  status : U16
  body : String

/-- What the answer comes to, without a usable `Retry-After`. -/
def Exchange.outcome (x : Exchange) : Except FetchError Fetched :=
  classify x.status x.body none x.path

/-- What a run leaves in a new directory. -/
def recordAll (exchanges : List Exchange) : Corpus :=
  exchanges.foldl (fun dir x => recordResponse dir x.path x.outcome) fun _ => none

/-- The request paths that are issued, of addresses and txids. -/
inductive Issued : String → Prop where
  | stats {address : String} : address.toList.all isAddressChar = true → Issued (statsPath address)
  | mempool {address : String} : address.toList.all isAddressChar = true →
      Issued (mempoolPath address)
  | chain {address : String} {asked : Option String} : address.toList.all isAddressChar = true →
      (∀ txid, asked = some txid → txid.toList.all isHexDigit = true) →
      Issued (chainPath address asked)

/-- The files that a path is answered from. -/
def filesOf (path : String) : List String :=
  [corpusName path ++ ".json", corpusName path ++ ".status"]

/-- The file that an exchange leaves. -/
def Exchange.file (x : Exchange) : String × String :=
  if x.status.val = 200 then (corpusName x.path ++ ".json", x.body)
  else if x.status.val = 404 then (corpusName x.path ++ ".status", "404\n")
  else (corpusName x.path ++ ".status", toString x.status.val ++ "\n" ++ capBody x.body)

/-! ### The cap -/

section Cap

variable {n : ℕ} {chars : List Char}

/-- What is taken fits, and stops only at a character that does not. -/
lemma byteCount_takeBytes (n : ℕ) (chars : List Char) :
    byteCount (takeBytes n chars) ≤ n ∧
      (takeBytes n chars = chars ∨ n < byteCount (takeBytes n chars) + 4) := by
  induction chars generalizing n with
  | nil => exact ⟨Nat.zero_le _, .inl rfl⟩
  | cons ch rest ih =>
    rw [takeBytes]
    split_ifs with hfits
    · obtain ⟨hle, hstop⟩ := ih (n - ch.utf8Size)
      rw [byteCount_cons]
      refine ⟨by omega, hstop.imp (fun h => by rw [h]) fun h => by omega⟩
    · have hsize := ch.utf8Size_le_four
      exact ⟨Nat.zero_le _, .inr (by rw [byteCount_nil]; omega)⟩

/-- Characters that fit are all taken, and what is left of the bytes goes to the characters behind
them. -/
lemma takeBytes_append {before : List Char} (after : List Char) (h : byteCount before ≤ n) :
    takeBytes n (before ++ after) = before ++ takeBytes (n - byteCount before) after := by
  induction before generalizing n with
  | nil => simp
  | cons ch before ih =>
    rw [byteCount_cons] at h
    rw [List.cons_append, takeBytes, if_pos (by omega), ih (by omega), byteCount_cons,
      List.cons_append, Nat.sub_sub]

/-- A number in decimal takes as many bytes as it has digits, since every digit is ASCII. -/
lemma byteCount_toDigits (m : ℕ) : byteCount (Nat.toDigits 10 m) = (Nat.toDigits 10 m).length := by
  have hall : ∀ ch ∈ Nat.toDigits 10 m, ch.utf8Size = 1 := fun ch hch => by
    have hdigit := Digits.isDigit_iff.mp
      (Nat.isDigit_of_mem_toDigits (by decide) (by decide) hch)
    rw [Char.utf8Size_eq_one_iff, UInt32.le_iff_toNat_le]
    exact hdigit.2.trans (by decide)
  rw [byteCount, List.map_congr_left hall, List.map_const', List.sum_replicate, smul_eq_mul,
    mul_one]

/-- The one number of more than 4096 bytes that a cap of its own text repeats. -/
lemma eq_of_length_toDigits {m : ℕ}
    (h : m = 4116 + (Nat.toDigits 10 m).length) : m = 4120 := by
  have hle (k : ℕ) (hk : 0 < k) : (Nat.toDigits 10 m).length ≤ k ↔ m < 10 ^ k :=
    Nat.length_toDigits_le_iff (by decide) hk
  have hlow : ¬ (Nat.toDigits 10 m).length ≤ 3 := by
    rw [hle 3 (by decide)]
    omega
  have hbig : ¬ (Nat.toDigits 10 m).length ≤ (Nat.toDigits 10 m).length - 1 := by omega
  rw [hle _ (by omega)] at hbig
  have hpow : (Nat.toDigits 10 m).length - 2 < 10 ^ ((Nat.toDigits 10 m).length - 2) :=
    Nat.lt_pow_self (by decide)
  have hsucc : 10 ^ ((Nat.toDigits 10 m).length - 1) =
      10 * 10 ^ ((Nat.toDigits 10 m).length - 2) := by
    rw [← pow_succ']
    congr 1
    omega
  have hhigh := (hle 4 (by decide)).mpr (by omega)
  omega

/-- **Which bodies are capped once and for all.**

**Proof sketch.** A short body is left alone. A long one becomes the first bytes of it, cut at a
character, with a mark of 21 bytes and at least four digits behind it, so it is over the bound and
is capped again. The second cap keeps the same first part and then fills what is left of the bound,
at most three bytes, with the start of the first mark; so the text changes if a character was split.
If none was, the two marks differ unless they name the same number of bytes, and what is capped the
second time has 4120. -/
lemma capChars_capChars_iff :
    capChars (capChars chars) = capChars chars ↔
      byteCount chars ≤ MAX_DETAIL_BODY ∨
        (byteCount chars = 4120 ∧
          byteCount (takeBytes MAX_DETAIL_BODY chars) = MAX_DETAIL_BODY) := by
  by_cases hfits : byteCount chars ≤ MAX_DETAIL_BODY
  · have honce : capChars chars = chars := if_pos hfits
    simp only [honce, hfits, true_or]
  obtain ⟨hle, hstop⟩ := byteCount_takeBytes MAX_DETAIL_BODY chars
  have hend : MAX_DETAIL_BODY < byteCount (takeBytes MAX_DETAIL_BODY chars) + 4 :=
    hstop.resolve_left fun heq => hfits (heq ▸ hle)
  have hcap : capChars chars = takeBytes MAX_DETAIL_BODY chars ++ (" [truncated: ".toList ++
      (Nat.toDigits 10 (byteCount chars) ++ " bytes]".toList)) := if_neg hfits
  have hbytes : byteCount (capChars chars) = byteCount (takeBytes MAX_DETAIL_BODY chars) + 20 +
      (Nat.toDigits 10 (byteCount chars)).length := by
    have hmark : byteCount " [truncated: ".toList = 13 := by decide
    have htail : byteCount " bytes]".toList = 7 := by decide
    rw [hcap, byteCount_append, byteCount_append, byteCount_append, byteCount_toDigits, hmark,
      htail]
    omega
  have hover : ¬ byteCount (capChars chars) ≤ MAX_DETAIL_BODY := by
    rw [hbytes]
    omega
  have htwice : capChars (capChars chars) = takeBytes MAX_DETAIL_BODY chars ++
      (takeBytes (MAX_DETAIL_BODY - byteCount (takeBytes MAX_DETAIL_BODY chars))
        (" [truncated: ".toList ++ (Nat.toDigits 10 (byteCount chars) ++ " bytes]".toList)) ++
      (" [truncated: ".toList ++
        (Nat.toDigits 10 (byteCount (capChars chars)) ++ " bytes]".toList))) := by
    rw [capChars, if_neg hover]
    nth_rewrite 1 [hcap]
    rw [takeBytes_append _ hle, List.append_assoc]
  rw [htwice]
  nth_rewrite 2 [hcap]
  rw [List.append_cancel_left_eq]
  generalize byteCount (takeBytes MAX_DETAIL_BODY chars) = stop at hle hend hbytes ⊢
  rcases Nat.lt_or_ge stop MAX_DETAIL_BODY with hshort | hfull
  · -- the cap splits a character: what is taken next is the start of the first mark
    have hstart : MAX_DETAIL_BODY - stop = 1 ∨ MAX_DETAIL_BODY - stop = 2 ∨
        MAX_DETAIL_BODY - stop = 3 := by omega
    refine ⟨fun heq => ?_, fun h => ?_⟩
    · rcases hstart with h | h | h <;> rw [h] at heq <;> simp [takeBytes, Char.utf8Size] at heq
    · exact absurd (h.resolve_left hfits).2 hshort.ne
  · have hstop : stop = MAX_DETAIL_BODY := le_antisymm hle hfull
    have hnone (rest : List Char) : takeBytes (MAX_DETAIL_BODY - MAX_DETAIL_BODY)
        (" [truncated: ".toList ++ rest) = [] := by
      rw [Nat.sub_self]
      rfl
    rw [hstop, hnone, List.nil_append, List.append_cancel_left_eq, List.append_cancel_right_eq]
    rw [hstop] at hbytes
    constructor
    · intro heq
      have hsame : byteCount (capChars chars) = byteCount chars := by
        rw [← Nat.ofDigitChars_ten_toDigits (n := byteCount (capChars chars)), heq,
          Nat.ofDigitChars_ten_toDigits]
      refine .inr ⟨eq_of_length_toDigits ?_, rfl⟩
      exact hsame.symm.trans hbytes
    · intro h
      have hlength := (h.resolve_left hfits).1
      rw [hbytes, hlength]
      rfl

end Cap

/-! ### File names -/

section Names

variable {path path' : String}

/-- A path of one leading slash and no underscore. -/
def Flat (path : String) : Prop :=
  ∃ rest, path.toList = '/' :: rest ∧ rest.head? ≠ some '/' ∧ '_' ∉ rest

/-- Such a path is told by its file name.

**Proof sketch.** The name of the file is the path without its first slash and with every other
slash written as an underscore; the path has no underscore, so it can be read back. -/
lemma corpusName_injective (h : Flat path) (h' : Flat path')
    (heq : corpusName path = corpusName path') : path = path' := by
  have hname {path : String} {rest : List Char} (hpath : path.toList = '/' :: rest)
      (hslash : rest.head? ≠ some '/') (hline : '_' ∉ rest) :
      (corpusName path).toList.map (fun ch => if ch == '_' then '/' else ch) = rest := by
    have hdrop : path.toList.dropWhile (· == '/') = rest := by
      rw [hpath, List.dropWhile_cons_of_pos rfl]
      cases rest with
      | nil => rfl
      | cons ch rest => exact List.dropWhile_cons_of_neg (by simpa using hslash)
    rw [corpusName, String.toList_ofList, hdrop, List.map_map]
    conv_rhs => rw [← List.map_id rest]
    refine List.map_congr_left fun ch hch => ?_
    have hne : ch ≠ '_' := ne_of_mem_of_not_mem hch hline
    by_cases hch : ch = '/'
    · subst hch
      rfl
    · simp [hch, hne]
  obtain ⟨rest, hpath, hslash, hline⟩ := h
  obtain ⟨rest', hpath', hslash', hline'⟩ := h'
  rw [← String.toList_inj, hpath, hpath', ← hname hpath hslash hline,
    ← hname hpath' hslash' hline', heq]

/-- The paths that are issued are such paths.

**Proof sketch.** By the kind of the path. Each is a slash and then fixed words, an address and
possibly a txid, none of which has an underscore. -/
lemma Issued.flat (h : Issued path) : Flat path := by
  have haddress {address : String} (h : address.toList.all isAddressChar = true) :
      '_' ∉ address.toList := fun hmem =>
    absurd (List.all_eq_true.mp h '_' hmem) (by decide)
  have htxid {txid : String} (h : txid.toList.all isHexDigit = true) : '_' ∉ txid.toList :=
    fun hmem => absurd (List.all_eq_true.mp h '_' hmem) (by decide)
  cases h with
  | @stats address h =>
    exact ⟨"address/".toList ++ address.toList, by simp [statsPath], by simp,
      by simp [haddress h]⟩
  | @mempool address h =>
    exact ⟨"address/".toList ++ address.toList ++ "/txs/mempool".toList, by simp [mempoolPath],
      by simp, by simp [haddress h]⟩
  | @chain address asked h hasked =>
    cases asked with
    | none =>
      exact ⟨"address/".toList ++ address.toList ++ "/txs/chain".toList, by simp [chainPath],
        by simp, by simp [haddress h]⟩
    | some txid =>
      exact ⟨"address/".toList ++ address.toList ++ "/txs/chain/".toList ++ txid.toList,
        by simp [chainPath], by simp, by simp [haddress h, htxid (hasked txid rfl)]⟩

/-- The two forms of a file differ, whatever the paths. -/
lemma json_ne_status (name name' : String) : name ++ ".json" ≠ name' ++ ".status" := by
  intro h
  have hlast := congrArg (fun s : String => s.toList.getLast?) h
  simp [String.toList_append, List.getLast?_append] at hlast

/-- **No path reads a file that was written for another.** -/
lemma filesOf_disjoint (h : Flat path) (h' : Flat path') (hne : path ≠ path') :
    List.Disjoint (filesOf path) (filesOf path') := by
  have hname : corpusName path ≠ corpusName path' := fun heq => hne (corpusName_injective h h' heq)
  have hcancel (suffix : String) : corpusName path ++ suffix ≠ corpusName path' ++ suffix :=
    fun heq => hname (by simpa [← String.toList_inj, String.toList_append] using heq)
  intro file hfile hfile'
  rcases List.mem_pair.mp hfile with rfl | rfl <;> rcases List.mem_pair.mp hfile' with heq | heq
  · exact hcancel _ heq
  · exact json_ne_status _ _ heq
  · exact json_ne_status _ _ heq.symm
  · exact hcancel _ heq

end Names

/-! ### Recording and replaying -/

section Replay

variable {dir : Corpus} {dirName : String} {x : Exchange} {exchanges : List Exchange}

/-- The digits of a status are read back.

**Proof sketch.** Digits are no white space, so nothing is trimmed, and they are read back as the
number they were written from, which has 16 bits. -/
lemma parseU16_trim (status : U16) :
    parseU16 (trim (Nat.toDigits 10 status.val)) = some status := by
  have hdigit : ∀ ch ∈ Nat.toDigits 10 status.val, isWhitespace ch = false := fun ch hch => by
    have hcode := Digits.isDigit_iff.mp
      (Nat.isDigit_of_mem_toDigits (by decide) (by decide) hch)
    simp only [isWhitespace, Bool.or_eq_false_iff, Bool.and_eq_false_iff, decide_eq_false_iff_not,
      List.contains_eq_mem, List.mem_cons, List.not_mem_nil, or_false]
    omega
  have hkeep (text : List Char) (h : ∀ ch ∈ text, isWhitespace ch = false) :
      text.dropWhile isWhitespace = text := by
    cases text with
    | nil => rfl
    | cons ch rest => exact List.dropWhile_cons_of_neg (by simp [h ch List.mem_cons_self])
  have htrim : trim (Nat.toDigits 10 status.val) = Nat.toDigits 10 status.val := by
    rw [trim, hkeep _ hdigit, hkeep _ fun ch hch => hdigit ch (List.mem_reverse.mp hch),
      List.reverse_reverse]
  have hu64 : parseU64 (Nat.toDigits 10 status.val) =
      some ⟨status.val, status.isLt.trans (by decide)⟩ :=
    parseU64_toDigits ⟨status.val, status.isLt.trans (by decide)⟩
  rw [htrim, parseU16, hu64, Option.bind_some, dif_pos status.isLt]

/-- The evidence of an error is read back. -/
lemma get_raw (body : String) (status : U16) :
    ((Json.get (.obj [("body", .str body), ("status", .nat status.val)]) "body").bind
      Json.asStr).getD "" = body ∧
    (Json.get (.obj [("body", .str body), ("status", .nat status.val)]) "status").bind
      Json.asU64 = some ⟨status.val, status.isLt.trans (by decide)⟩ := by
  refine ⟨rfl, ?_⟩
  have hliteral : (toString status.val).toList = Nat.toDigits 10 status.val := by
    rw [Nat.toString_eq_ofList_toDigits, String.toList_ofList]
  show parseU64 (toString status.val).toList = _
  rw [hliteral]
  exact parseU64_toDigits ⟨status.val, status.isLt.trans (by decide)⟩

/-- An outcome is recorded in the file of its exchange. -/
lemma recordResponse_outcome :
    recordResponse dir x.path x.outcome = Function.update dir x.file.1 (some x.file.2) := by
  obtain ⟨hbody, hstatus⟩ := get_raw (capBody x.body) x.status
  unfold Exchange.outcome Exchange.file classify
  split_ifs with h200 h404 h429
  · rfl
  · rfl
  · simp only [recordResponse, FetchError.detail, hbody, hstatus]
  · simp only [recordResponse, FetchError.detail, hbody, hstatus]

/-- A file of an exchange is one of those of its path. -/
lemma file_mem_filesOf (x : Exchange) : x.file.1 ∈ filesOf x.path := by
  unfold Exchange.file filesOf
  split_ifs <;> simp

/-- What is read of a file after some were recorded: what the one exchange left that names it.

**Proof sketch.** Recording writes one file after the other, so what a file has in the end is what
the last exchange that names it wrote, and all that name it wrote the same. A file that none names
has nothing. -/
lemma recordAll_eq {file : String} {content : Option String}
    (hcontent : ∀ x ∈ exchanges, x.file.1 = file → some x.file.2 = content)
    (hwritten : content = none ∨ ∃ x ∈ exchanges, x.file.1 = file) :
    recordAll exchanges file = content := by
  have hfold (dir : Corpus) : exchanges.foldl (fun dir x => recordResponse dir x.path x.outcome)
      dir file = if ∃ x ∈ exchanges, x.file.1 = file then content else dir file := by
    clear hwritten
    induction exchanges generalizing dir with
    | nil => simp
    | cons x rest ih =>
      rw [List.foldl_cons, recordResponse_outcome,
        ih fun y hy => hcontent y (List.mem_cons_of_mem _ hy)]
      by_cases hrest : ∃ y ∈ rest, y.file.1 = file
      · obtain ⟨y, hy, hfile⟩ := hrest
        rw [if_pos ⟨y, hy, hfile⟩, if_pos ⟨y, List.mem_cons_of_mem _ hy, hfile⟩]
      rw [if_neg hrest]
      by_cases hx : x.file.1 = file
      · rw [if_pos ⟨x, List.mem_cons_self, hx⟩, ← hx, Function.update_self]
        exact hcontent x List.mem_cons_self hx
      · rw [Function.update_of_ne (Ne.symm hx), if_neg]
        rintro ⟨y, hy, hfile⟩
        rcases List.mem_cons.mp hy with rfl | hy
        · exact hx hfile
        · exact hrest ⟨y, hy, hfile⟩
  rw [recordAll, hfold]
  rcases hwritten with rfl | hwritten
  · exact ite_self _
  · exact if_pos hwritten

/-- **What a recorded corpus replays** for one of its paths: the status and the body as they were
recorded, taken for a response.

**Proof sketch.** The files of two paths are disjoint, so a file of this path has what this exchange
recorded. With status 200 it is the body. Otherwise there is no such body file, and the status file
is read: its first line is the decimal status, whose digits have no line feed in them, and the rest
is the body that was recorded, which is empty for 404. -/
lemma replayGet_recordAll (hpaths : (exchanges.map Exchange.path).Nodup)
    (hissued : ∀ x ∈ exchanges, Issued x.path) (hx : x ∈ exchanges) :
    replayGet dirName (recordAll exchanges) x.path =
      classify x.status (if x.status.val = 200 then x.body else capBody x.body) none x.path := by
  have hsame {y : Exchange} (hy : y ∈ exchanges) {file : String} (hfile : file ∈ filesOf x.path)
      (heq : y.file.1 = file) : y = x := by
    by_contra hne
    have hpath : y.path ≠ x.path := fun h =>
      hne (List.inj_on_of_nodup_map hpaths hy hx h)
    exact filesOf_disjoint (hissued y hy).flat (hissued x hx).flat hpath (file_mem_filesOf y)
      (heq ▸ hfile)
  by_cases h200 : x.status.val = 200
  · have hfile : x.file = (corpusName x.path ++ ".json", x.body) := if_pos h200
    have hjson : recordAll exchanges (corpusName x.path ++ ".json") = some x.body :=
      recordAll_eq (fun y hy heq => by rw [hsame hy List.mem_cons_self heq, hfile])
        (.inr ⟨x, hx, by rw [hfile]⟩)
    unfold replayGet
    simp only [hjson, if_pos h200]
    rw [classify, if_pos h200]
  have hfile : x.file.1 = corpusName x.path ++ ".status" := by
    unfold Exchange.file
    split_ifs <;> rfl
  have hjson : recordAll exchanges (corpusName x.path ++ ".json") = none := by
    refine recordAll_eq (fun y hy heq => ?_) (.inl rfl)
    rw [hsame hy List.mem_cons_self heq, hfile] at heq
    exact absurd heq.symm (json_ne_status _ _)
  have hstatus : recordAll exchanges (corpusName x.path ++ ".status") = some x.file.2 :=
    recordAll_eq (fun y hy heq => by
      rw [hsame hy (List.mem_cons_of_mem _ List.mem_cons_self) heq]) (.inr ⟨x, hx, hfile⟩)
  -- the first line is the status; what follows it is the body
  have hparts (body : String) : splitOnce ['\n'] (toString x.status.val ++ "\n" ++ body).toList =
      some (Nat.toDigits 10 x.status.val, body.toList) := by
    have hdigits : (toString x.status.val ++ "\n" ++ body).toList =
        Nat.toDigits 10 x.status.val ++ ['\n'] ++ body.toList := by
      simp [String.toList_append]
    rw [hdigits]
    refine splitOnce_append [] _ fun hmem => ?_
    exact absurd (Nat.isDigit_of_mem_toDigits (by decide) (by decide) hmem) (by decide)
  have hread (body : String) (hcontent : x.file.2 = toString x.status.val ++ "\n" ++ body) :
      replayGet dirName (recordAll exchanges) x.path = classify x.status body none x.path := by
    unfold replayGet
    simp only [hjson, hstatus, hcontent, hparts, Option.getD_some, parseU16_trim,
      String.ofList_toList]
  rw [if_neg h200]
  by_cases h404 : x.status.val = 404
  · have hcontent : x.file.2 = toString x.status.val ++ "\n" ++ "" := by
      rw [Exchange.file, if_neg h200, if_pos h404, h404]
      show "404\n" = toString 404 ++ "\n" ++ ""
      decide
    rw [hread "" hcontent, classify, classify, if_neg h200, if_neg h200, if_pos h404, if_pos h404]
  · exact hread _ (by rw [Exchange.file, if_neg h200, if_neg h404])

/-- When the outcome that is replayed is the one that was recorded. -/
lemma replays_iff (x : Exchange) :
    classify x.status (if x.status.val = 200 then x.body else capBody x.body) none x.path =
        x.outcome ↔
      x.status.val = 200 ∨ x.status.val = 404 ∨
        (asBytes x.body).length ≤ MAX_DETAIL_BODY ∨
        ((asBytes x.body).length = 4120 ∧
          byteCount (takeBytes MAX_DETAIL_BODY x.body.toList) = MAX_DETAIL_BODY) := by
  rw [Exchange.outcome, length_asBytes, ← capChars_capChars_iff]
  have hcap : capBody (capBody x.body) = capBody x.body ↔
      capChars (capChars x.body.toList) = capChars x.body.toList := by
    rw [capBody, capBody, String.toList_ofList]
    exact ⟨fun h => String.ofList_injective h, fun h => by rw [h]⟩
  by_cases h200 : x.status.val = 200
  · simp [h200]
  by_cases h404 : x.status.val = 404
  · simp [classify, h404]
  rw [← hcap]
  simp only [h200, h404, if_false, false_or, classify]
  split_ifs <;> simp

end Replay

/-- **When a recorded corpus replays the run it recorded**: when each of its answers is a 200, a
404, has a body within the cap, or one that the cap turns into a text it turns into itself. No path
reads a file of another. -/
theorem corpus_replays_iff (dirName : String) (exchanges : List Exchange)
    (hpaths : (exchanges.map Exchange.path).Nodup) (hissued : ∀ x ∈ exchanges, Issued x.path) :
    ((∀ x ∈ exchanges, replayGet dirName (recordAll exchanges) x.path = x.outcome) ∧
      ∀ x ∈ exchanges, ∀ y ∈ exchanges, x.path ≠ y.path → y.file.1 ∉ filesOf x.path) ↔
    ∀ x ∈ exchanges, x.status.val = 200 ∨ x.status.val = 404 ∨
      (asBytes x.body).length ≤ MAX_DETAIL_BODY ∨
      ((asBytes x.body).length = 4120 ∧
        byteCount (takeBytes MAX_DETAIL_BODY x.body.toList) = MAX_DETAIL_BODY) := by
  have hapart : ∀ x ∈ exchanges, ∀ y ∈ exchanges, x.path ≠ y.path → y.file.1 ∉ filesOf x.path :=
    fun x hx y hy hne hmem => filesOf_disjoint (hissued x hx).flat (hissued y hy).flat hne hmem
      (file_mem_filesOf y)
  rw [and_iff_left hapart]
  refine forall₂_congr fun x hx => ?_
  rw [replayGet_recordAll hpaths hissued hx, replays_iff]

/-- A run over two addresses: one is answered, the provider is down for a moment, and a path is not
found. -/
def shortExchanges : List Exchange :=
  [⟨statsPath "bc1qexample0", 200, "\x7b\x7d"⟩, ⟨statsPath "bc1qexample1", 503, "down"⟩,
    ⟨mempoolPath "bc1qexample0", 404, "not found"⟩, ⟨chainPath "bc1qexample1" (some "ab"), 429, ""⟩]

/-- A run whose answers are short replays as it was recorded. -/
theorem corpus_replays_iff_short :
    (∀ x ∈ shortExchanges, replayGet "corpus" (recordAll shortExchanges) x.path = x.outcome) ∧
      ∀ x ∈ shortExchanges, ∀ y ∈ shortExchanges, x.path ≠ y.path → y.file.1 ∉ filesOf x.path := by
  have hfirst : "bc1qexample0".toList.all isAddressChar = true := by decide
  have hsecond : "bc1qexample1".toList.all isAddressChar = true := by decide
  have hlisting : Issued (chainPath "bc1qexample1" (some "ab")) := by
    refine .chain hsecond fun txid htxid => ?_
    obtain rfl : "ab" = txid := Option.some.inj htxid
    decide
  have hissued : ∀ x ∈ shortExchanges, Issued x.path :=
    List.forall_mem_cons.mpr ⟨.stats hfirst, List.forall_mem_cons.mpr ⟨.stats hsecond,
      List.forall_mem_cons.mpr ⟨.mempool hfirst, List.forall_mem_singleton.mpr hlisting⟩⟩⟩
  exact (corpus_replays_iff "corpus" shortExchanges (by decide +kernel) hissued).mpr
    (by decide +kernel)

/-- A provider that is down, and says so in 4097 bytes. -/
def longExchange : Exchange :=
  ⟨statsPath "bc1qexample0", 503, String.ofList (List.replicate 4097 'x')⟩

/-- **A recording that replays differently**: the body that was capped is capped once more, and the
mark at its end counts the bytes of the capped body.

**Proof sketch.** The body has 4097 bytes, one more than the bound, so it is capped when it is
recorded and capped again when it is replayed; none of the four ways to replay alike is met. -/
theorem corpus_replays_long :
    ¬ ∀ x ∈ [longExchange], replayGet "corpus" (recordAll [longExchange]) x.path = x.outcome := by
  intro hreplays
  have hissued : ∀ x ∈ [longExchange], Issued x.path := fun x hx => by
    rw [List.mem_singleton.mp hx]
    exact .stats (by decide)
  have hpaths : ([longExchange].map Exchange.path).Nodup := List.nodup_singleton _
  have hone := hreplays longExchange List.mem_cons_self
  rw [replayGet_recordAll hpaths hissued List.mem_cons_self, replays_iff] at hone
  have hlength : (asBytes longExchange.body).length = 4097 := by
    rw [length_asBytes, longExchange, String.toList_ofList, byteCount, List.map_replicate,
      List.sum_replicate]
    rfl
  rw [hlength] at hone
  rcases hone with h | h | h | h
  · exact absurd h (by decide)
  · exact absurd h (by decide)
  · exact absurd h (by decide)
  · exact absurd h.1 (by decide)

end Sumer.Bitcoin
