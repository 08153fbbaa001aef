import Sumer.Bitcoin.Adapter

set_option relaxedAutoImplicit false
set_option autoImplicit false

/-!
# The ledger of a request

What each query of a `history.read` comes to, and what it takes of the reply's bytes, as the
request, the crawls in hand before it and the provider's answers decide it. The ledger has no state
of the loop: what a query finds in hand is what was in hand before the request, since no resource is
named twice, and from one line to the next only two things are handed on, whether the batch still
goes on and how many bytes are left.

## Main definitions

* `Sumer.Bitcoin.Share`, `Sumer.Bitcoin.Line`: what a query comes to, and with how much left.
* `Sumer.Bitcoin.ledgerOf`: the ledger of a request.
* `Sumer.Bitcoin.Line.Displaces`: a line that changes what is in hand of its wallet.
* `Sumer.Bitcoin.overdraft`, `Sumer.Bitcoin.spare`: the bytes of a reply that nothing was set aside
  for, and those that were set aside and not used.

## Main results

* `Sumer.Bitcoin.serveAll_eq_apply`: the loop over the queries does what the lines say.
* `Sumer.Bitcoin.crawlsOf_apply_iff`: when the lines change what is in hand.
* `Sumer.Bitcoin.overdraft_le_spare_iff`: when the reply that the lines make fits a frame.
-/

namespace Sumer.Bitcoin

open Sumer.Wire

/-! ### Lines -/

/-- What a query comes to: the request is refused because of it, or its crawl has a transaction
that cannot be mapped, or it has an entry without a page, after which the batch goes on or not, or
it is served a page of a plan. -/
inductive Share where
  | refused (e : ErrorBody)
  | unmapped (crawl : Crawl) (e : MapError)
  | entry (e : StatusEntry) (goesOn : Bool)
  | page (start : Option Cursor) (crawl : Crawl) (plan : Plan)

/-- Whether a query makes the request fail. -/
def Share.fails : Share → Bool
  | .refused _ | .unmapped _ _ => true
  | .entry _ _ | .page _ _ _ => false

/-- Whether the batch goes on after a query. -/
def Share.goesOn : Share → Bool
  | .entry _ goesOn => goesOn
  | .refused _ | .unmapped _ _ | .page _ _ _ => true

/-- The share of a query, by what was in hand before the request and by what the provider answers,
in a batch that still goes on or does not. -/
def shareOf (debug : String → String) (a : Adapter) (world : String → Responses) (crawls : Crawls)
    (going : Bool) (q : ResourceQuery) : Share :=
  match startOf debug q.page with
  | .error e => .refused e
  | .ok start =>
    match a.lookup q.resourceId with
    | none => .entry (unknownResource q.resourceId) true
    | some w =>
      if going then
        match crawlFor (world q.resourceId) w (crawls q.resourceId) start with
        | .error e => .refused e
        | .ok (.error (.rateLimited ms detail)) =>
          .entry ((status q.resourceId (.rateLimited ms.val)).withDetail detail) false
        | .ok (.error (.unavailable detail)) =>
          .entry ((status q.resourceId .unavailable).withDetail detail) true
        | .ok (.ok crawl) =>
          match plan (a.ctx w crawl.observedAt) crawl.chain.toChain w.owned start with
          | .error e => .unmapped crawl e
          | .ok p => .page start crawl p
      else .entry (status q.resourceId .notFetched) true

/-- A line of the ledger: a query's resource, what it comes to, and the bytes of the reply that are
left when its turn comes. -/
structure Line where
  resourceId : String
  share : Share
  left : ℕ

namespace Line

/-- The bytes that a page of the line may take. -/
def room (l : Line) : ℕ := min l.left PAGE_BUDGET_BYTES

/-- The status entry of the line. There is none when the request fails. -/
def entry (l : Line) : StatusEntry :=
  match l.share with
  | .refused _ | .unmapped _ _ => status l.resourceId .notFetched
  | .entry e _ => e
  | .page start _ p => (cutPage p start l.room).entry l.resourceId

/-- The records of the line. -/
def records (l : Line) : List ObservationWire :=
  match l.share with
  | .refused _ | .unmapped _ _ | .entry _ _ => []
  | .page start _ p => (cutPage p start l.room).observations

/-- What the entry takes beyond its reservation. -/
def excess (l : Line) : ℕ := l.entry.toJson.size - statusBytes l.resourceId

/-- What the entry leaves of its reservation. -/
def unused (l : Line) : ℕ := statusBytes l.resourceId - l.entry.toJson.size

/-- What the line takes of the bytes that are left: the records of a page, or the evidence of an
entry that has no page. -/
def spends (l : Line) : ℕ :=
  match l.share with
  | .refused _ | .unmapped _ _ => 0
  | .entry _ _ => l.excess
  | .page start _ p => (cutPage p start l.room).bytes

/-- What the line puts into the reply and nothing pays for: the evidence of an entry beyond what is
left, and the omitted records that the entry of a page reports beyond its reservation. -/
def unpaid (l : Line) : ℕ :=
  match l.share with
  | .refused _ | .unmapped _ _ => 0
  | .entry _ _ => l.excess - l.left
  | .page _ _ _ => l.excess

/-- What the line leaves in hand of its wallet: a crawl whose records all have room is drained and
dropped, and one that has more stays, as does one that cannot be mapped. -/
def inHand (l : Line) (before : Option Crawl) : Option Crawl :=
  match l.share with
  | .refused _ | .entry _ _ => before
  | .unmapped crawl _ => some crawl
  | .page _ crawl p => if spent p.items ≤ l.room then none else some crawl

/-- **A line that changes what is in hand** of its wallet. -/
def Displaces (crawls : Crawls) (l : Line) : Prop :=
  l.inHand (crawls l.resourceId) ≠ crawls l.resourceId

/-- What a line makes of the state of the loop. -/
def apply (l : Line) (s : Reading) : Except Failure Reading :=
  match l.share with
  | .refused e => .error ⟨s.crawls, e⟩
  | .unmapped crawl e =>
    .error ⟨Function.update s.crawls l.resourceId (some crawl), internal e.message⟩
  | .entry e goesOn => .ok { s.push e with abandoned := s.abandoned || !goesOn }
  | .page start crawl p =>
    .ok (s.paged ⟨l.resourceId, none⟩ crawl (cutPage p start l.room))

end Line

/-! ### The ledger -/

/-- The lines of some queries, in a batch that goes on or not, with some bytes left. -/
def ledger (debug : String → String) (a : Adapter) (world : String → Responses) (crawls : Crawls) :
    Bool → ℕ → List ResourceQuery → List Line
  | _, _, [] => []
  | going, left, q :: queries =>
    let l : Line := ⟨q.resourceId, shareOf debug a world crawls going q, left⟩
    l :: ledger debug a world crawls (going && l.share.goesOn) (left - l.spends) queries

/-- **The ledger of a request**: it starts from the bytes of a reply without the reservations. -/
def ledgerOf (debug : String → String) (a : Adapter) (world : String → Responses) (crawls : Crawls)
    (queries : List ResourceQuery) : List Line :=
  ledger debug a world crawls true
    (Budget.new.left - (queries.map fun q => statusBytes q.resourceId).sum) queries

/-- The lines that are reached: the first one that makes the request fail is the last one. -/
def reached : List Line → List Line
  | [] => []
  | l :: lines => l :: if l.share.fails then [] else reached lines

/-- The bytes of a reply around its two lists. -/
def envelopeBytes (requestId : U64) : ℕ := (replyJson requestId (.ok ⟨[], []⟩)).size

/-- The bytes that are left after some lines. -/
def unspent : ℕ → List Line → ℕ
  | left, [] => left
  | _, l :: lines => unspent (l.left - l.spends) lines

/-- What the entries of some lines reserve. -/
def reserved (lines : List Line) : ℕ := (lines.map fun l => statusBytes l.resourceId).sum

/-- **The bytes of a reply that nothing was set aside for**: its envelope, the commas between its
entries, what the reservations ask for beyond the budget, and what is unpaid. -/
def overdraft (requestId : U64) (lines : List Line) : ℕ :=
  envelopeBytes requestId + (lines.length - 1) + (reserved lines - Budget.new.left) +
    (lines.map Line.unpaid).sum

/-- **The bytes that were set aside and are not used**: for an envelope, for the comma after the
last record, by the reservations, and of the budget at the end. -/
def spare (lines : List Line) : ℕ :=
  ENVELOPE_BYTES + min 1 (lines.flatMap Line.records).length + (lines.map Line.unused).sum +
    unspent (Budget.new.left - reserved lines) lines

/-! ### The loop does what the lines say -/

/-- The crawls in hand after a turn of the loop, or after all of it, whatever came of it. -/
def crawlsOf : Except Failure Reading → Crawls
  | .ok s => s.crawls
  | .error f => f.crawls

section Apply

variable {debug : String → String} {a : Adapter} {world : String → Responses} {crawls : Crawls}
  {s s' : Reading} {q : ResourceQuery} {queries : List ResourceQuery} {l : Line}
  {lines : List Line}

/-- The mandatory entry of a resource is within its reservation. -/
lemma charge_fetched (b : Budget) (resourceId : String) :
    b.charge (status resourceId (.fetched true)) = b := by
  have hle : (status resourceId (.fetched true)).toJson.size ≤ statusBytes resourceId :=
    Nat.le_add_right _ _
  have hsame : (status resourceId (.fetched true)).resourceId = resourceId := rfl
  rw [Budget.charge, hsame, Nat.sub_eq_zero_of_le hle]
  rfl

/-- A page is cut to what is left, up to the cap of a page. -/
lemma Reading.pageBudget_eq (s : Reading) (q : ResourceQuery) :
    s.pageBudget q = min s.budget.left PAGE_BUDGET_BYTES := by
  rw [Reading.pageBudget, charge_fetched]
  rfl

/-- **What a query does is what its line says**, when the loop has of its resource what was in hand
before the request.

**Proof sketch.** The branches of the turn are compared with those of the line, one by one. The line
decides the share of the query from what was in hand before the request, and the turn from what is
in hand now; for this resource they agree by assumption. -/
lemma serveQuery_eq_apply (hcrawl : s.crawls q.resourceId = crawls q.resourceId) :
    serveQuery debug a world s q =
      Line.apply
        ⟨q.resourceId, shareOf debug a world crawls (!s.abandoned) q, s.budget.left⟩ s := by
  unfold serveQuery shareOf Line.apply
  cases startOf debug q.page with
  | error e => rfl
  | ok start =>
    cases hw : a.lookup q.resourceId with
    | none =>
      simp only [Bool.not_true, Bool.or_false]
      rfl
    | some w =>
      cases hgoing : s.abandoned with
      | true => simp [Reading.push, hgoing]
      | false =>
        simp only [Bool.false_eq_true, if_false, Bool.not_false, if_true, hcrawl]
        cases crawlFor (world q.resourceId) w (crawls q.resourceId) start with
        | error e => rfl
        | ok fetched =>
          cases fetched with
          | error e =>
            cases e with
            | rateLimited ms detail => simp [Reading.push]
            | unavailable detail => simp [Reading.push, hgoing]
          | ok crawl =>
            simp only [Adapter.pageOf, charge_fetched]
            cases plan (a.ctx w crawl.observedAt) crawl.chain.toChain w.owned start with
            | error e => rfl
            | ok p =>
              simp only [Reading.paged, charge_fetched, hgoing]
              rfl

/-- A page leaves something when one of its records has no room any more. -/
lemma isNone_next_cutPage (p : Plan) (start : Option Cursor) (budget : ℕ) :
    (cutPage p start budget).next.isNone = true ↔ spent p.items ≤ budget := by
  obtain ⟨taken, rest, hitems, -, -, hbytes, hle, hend⟩ := cutPage_spec p start budget
  rw [hbytes] at hle hend
  rcases hend with ⟨hnext, hrest⟩ | ⟨hnext, i, o, more, hrest, hkept, hfull⟩
  · have hall : p.items = taken := by rw [hitems, hrest, List.append_nil]
    rw [hnext, hall]
    exact iff_of_true rfl hle
  · have hmore : spent p.items = spent taken + cost o + spent more := by
      rw [hitems, hrest]
      simp only [spent, List.filterMap_append, List.filterMap_cons, hkept, List.map_append,
        List.map_cons, List.sum_append, List.sum_cons]
      omega
    rw [hnext, hmore]
    exact iff_of_false (by simp) (by omega)

/-- **What a line makes of the loop's state**, when it does not make the request fail. -/
structure Line.Adds (l : Line) (s s' : Reading) : Prop where
  goes : l.share.fails = false
  statuses : s'.statuses = s.statuses ++ [l.entry]
  observations : s'.observations = s.observations ++ l.records
  abandoned : s'.abandoned = (s.abandoned || !l.share.goesOn)
  crawls : s'.crawls =
    Function.update s.crawls l.resourceId (l.inHand (s.crawls l.resourceId))
  left : l.entry.resourceId = l.resourceId → l.left = s.budget.left →
    s'.budget.left = l.left - l.spends

/-- A line that does not make the request fail adds what it says.

**Proof sketch.** By the share of the line. A refusal fails the request; an entry adds itself and
gives up the rest if it met a limit; a page adds its records and its entry, and leaves its crawl in
hand. -/
lemma Line.adds (h : l.apply s = .ok s') : l.Adds s s' := by
  obtain ⟨resourceId, share, left⟩ := l
  cases share with
  | refused e => cases h
  | unmapped crawl e => cases h
  | entry e goesOn =>
    cases h
    refine ⟨rfl, rfl, (List.append_nil _).symm, rfl, (Function.update_eq_self _ _).symm, ?_⟩
    rintro hid rfl
    show s.budget.left - (e.toJson.size - statusBytes e.resourceId) = _
    rw [show e.resourceId = resourceId from hid]
    rfl
  | page start crawl p =>
    cases h
    refine ⟨rfl, rfl, rfl, (Bool.or_false _).symm, ?_, ?_⟩
    · rw [Reading.crawls_paged]
      simp only [Line.inHand, isNone_next_cutPage]
    · rintro - rfl
      simp only [Reading.paged, Reading.serve, charge_fetched]
      rfl

/-- A line fails when its share does. -/
lemma Line.apply_eq_error_iff : (∃ f, l.apply s = .error f) ↔ l.share.fails = true := by
  unfold Line.apply Share.fails
  cases l.share <;> simp

/-- What a line leaves in hand, whatever comes of the request. -/
lemma Line.crawlsOf_apply (l : Line) (s : Reading) :
    crawlsOf (l.apply s) =
      Function.update s.crawls l.resourceId (l.inHand (s.crawls l.resourceId)) := by
  cases h : l.apply s with
  | ok s' => exact (Line.adds h).crawls
  | error f =>
    obtain ⟨resourceId, share, left⟩ := l
    cases share with
    | refused e =>
      cases h
      exact (Function.update_eq_self _ _).symm
    | unmapped crawl e =>
      cases h
      rfl
    | entry e goesOn => cases h
    | page start crawl p => cases h

/-- The entry of a query is about its resource.

**Proof sketch.** By the share of the query. Every entry that is made for it is made with its own
resource, and one with a page takes the resource of the line. -/
lemma resourceId_entry (debug : String → String) (a : Adapter) (world : String → Responses)
    (crawls : Crawls) (going : Bool) (q : ResourceQuery) (left : ℕ) :
    (Line.mk q.resourceId (shareOf debug a world crawls going q) left).entry.resourceId =
      q.resourceId := by
  unfold Line.entry shareOf
  cases startOf debug q.page with
  | error e => rfl
  | ok start =>
    cases a.lookup q.resourceId with
    | none => rfl
    | some w =>
      cases going with
      | false => rfl
      | true =>
        simp only [if_true]
        cases crawlFor (world q.resourceId) w (crawls q.resourceId) start with
        | error e => rfl
        | ok fetched =>
          cases fetched with
          | error e => cases e <;> rfl
          | ok crawl =>
            simp only
            cases plan (a.ctx w crawl.observedAt) crawl.chain.toChain w.owned start <;> rfl

/-- **The loop over the queries does what the lines say**, by induction on the queries: a query
finds in hand what was in hand before the request, since those before it are about other resources,
and what a line hands on is what the loop has.

**Proof sketch.** One turn is `serveQuery_eq_apply`. When it does not fail, the state after it has
the crawls of the later queries untouched, goes on or not as the line says and has left what the
line leaves, so the induction hypothesis applies to the rest. -/
lemma serveAll_eq_apply {going : Bool} (hnodup : (queries.map ResourceQuery.resourceId).Nodup)
    (hcrawls : ∀ q ∈ queries, s.crawls q.resourceId = crawls q.resourceId)
    (hgoing : s.abandoned = !going) :
    queries.foldlM (serveQuery debug a world) s =
      (ledger debug a world crawls going s.budget.left queries).foldlM
        (fun s l => l.apply s) s := by
  induction queries generalizing s going with
  | nil => rfl
  | cons q queries ih =>
    obtain ⟨hq, hrest⟩ := List.nodup_cons.mp hnodup
    have hturn : serveQuery debug a world s q =
        Line.apply ⟨q.resourceId, shareOf debug a world crawls (!s.abandoned) q, s.budget.left⟩ s :=
      serveQuery_eq_apply (hcrawls q List.mem_cons_self)
    rw [hgoing, Bool.not_not] at hturn
    rw [List.foldlM_cons, ledger, List.foldlM_cons, hturn]
    cases happly : Line.apply ⟨q.resourceId, shareOf debug a world crawls going q, s.budget.left⟩ s
      with
    | error f => rfl
    | ok s' =>
      have hadds := Line.adds happly
      have hleft := hadds.left (resourceId_entry debug a world crawls going q _) rfl
      rw [← hleft]
      refine ih hrest (fun q' hq' => ?_) ?_
      · have hne : q'.resourceId ≠ q.resourceId := fun heq =>
          hq (heq ▸ List.mem_map_of_mem hq')
        rw [hadds.crawls, Function.update_of_ne hne, hcrawls q' (List.mem_cons_of_mem _ hq')]
      · rw [hadds.abandoned, hgoing, Bool.not_and]

/-- What the lines that are reached leave in hand. -/
lemma crawlsOf_foldlM_apply (lines : List Line) (s : Reading) :
    crawlsOf (lines.foldlM (fun s l => l.apply s) s) =
      (reached lines).foldl (fun crawls l =>
        Function.update crawls l.resourceId (l.inHand (crawls l.resourceId))) s.crawls := by
  induction lines generalizing s with
  | nil => rfl
  | cons l lines ih =>
    have hone := l.crawlsOf_apply s
    rw [List.foldlM_cons, reached]
    cases happly : l.apply s with
    | error f =>
      rw [happly] at hone
      rw [if_pos (Line.apply_eq_error_iff.mp ⟨f, happly⟩)]
      exact hone
    | ok s' =>
      rw [if_neg (by simp [(Line.adds happly).goes]), List.foldl_cons,
        ← (Line.adds happly).crawls]
      exact ih s'

/-- The lines that are reached are lines. -/
lemma reached_sublist (lines : List Line) : (reached lines).Sublist lines := by
  induction lines with
  | nil => exact .slnil
  | cons l lines ih =>
    rw [reached]
    split_ifs
    · exact (List.nil_sublist lines).cons_cons l
    · exact ih.cons_cons l

/-- Lines of different resources leave everything as it was exactly when each of them does.

**Proof sketch.** Induction on the lines. The first one changes the crawl of its own resource only,
and none of the later ones is about that resource; so the whole leaves it as it was exactly when the
first line does, and then the rest starts from the same crawls. -/
lemma foldl_inHand_eq_iff {lines : List Line} (hnodup : (lines.map Line.resourceId).Nodup)
    (crawls : Crawls) :
    lines.foldl (fun crawls l =>
        Function.update crawls l.resourceId (l.inHand (crawls l.resourceId))) crawls = crawls ↔
      ∀ l ∈ lines, ¬ l.Displaces crawls := by
  have hother (lines : List Line) (crawls : Crawls) {resourceId : String}
      (h : resourceId ∉ lines.map Line.resourceId) :
      lines.foldl (fun crawls l =>
        Function.update crawls l.resourceId (l.inHand (crawls l.resourceId))) crawls resourceId =
          crawls resourceId := by
    induction lines generalizing crawls with
    | nil => rfl
    | cons l lines ih =>
      rw [List.map_cons, List.mem_cons, not_or] at h
      rw [List.foldl_cons, ih _ h.2, Function.update_of_ne h.1]
  induction lines generalizing crawls with
  | nil => simp
  | cons l lines ih =>
    obtain ⟨hl, hrest⟩ := List.nodup_cons.mp hnodup
    rw [List.foldl_cons, List.forall_mem_cons]
    constructor
    · intro heq
      -- the later lines are about other resources, so this one has left its own as it was
      have hkept : l.inHand (crawls l.resourceId) = crawls l.resourceId := by
        have hat := congrFun heq l.resourceId
        rwa [hother lines _ hl, Function.update_self] at hat
      rw [hkept, Function.update_eq_self] at heq
      exact ⟨not_not.mpr hkept, (ih hrest crawls).mp heq⟩
    · rintro ⟨hkept, hlater⟩
      rw [not_not.mp hkept, Function.update_eq_self]
      exact (ih hrest crawls).mpr hlater

/-- **When the lines change what is in hand**: when one that is reached displaces the crawl of its
wallet. -/
lemma crawlsOf_apply_iff {lines : List Line} (hnodup : (lines.map Line.resourceId).Nodup)
    (s : Reading) :
    crawlsOf (lines.foldlM (fun s l => l.apply s) s) = s.crawls ↔
      ∀ l ∈ reached lines, ¬ l.Displaces s.crawls := by
  rw [crawlsOf_foldlM_apply]
  exact foldl_inHand_eq_iff (hnodup.sublist ((reached_sublist lines).map _)) s.crawls

/-- The lines make the request fail when one of them does. -/
lemma foldlM_apply_eq_error_iff :
    (∃ f, lines.foldlM (fun s l => l.apply s) s = .error f) ↔
      ∃ l ∈ lines, l.share.fails = true := by
  induction lines generalizing s with
  | nil => simp [pure, Except.pure]
  | cons l lines ih =>
    rw [List.foldlM_cons, List.exists_mem_cons_iff]
    cases happly : l.apply s with
    | error f => exact iff_of_true ⟨f, rfl⟩ (.inl (Line.apply_eq_error_iff.mp ⟨f, happly⟩))
    | ok s' =>
      have hgoes := (Line.adds happly).goes
      rw [hgoes]
      simp only [Bool.false_eq_true, false_or]
      exact ih

/-- The entries and the records of a reply are those of the lines. -/
lemma foldlM_apply_eq_ok (h : lines.foldlM (fun s l => l.apply s) s = .ok s') :
    (∀ l ∈ lines, l.share.fails = false) ∧ s'.statuses = s.statuses ++ lines.map Line.entry ∧
      s'.observations = s.observations ++ lines.flatMap Line.records := by
  induction lines generalizing s with
  | nil =>
    cases h
    simp
  | cons l lines ih =>
    obtain ⟨mid, hmid, h⟩ := foldlM_cons_eq_ok.mp h
    have hadds := Line.adds hmid
    obtain ⟨hgoes, hstatuses, hobservations⟩ := ih h
    refine ⟨List.forall_mem_cons.mpr ⟨hadds.goes, hgoes⟩, ?_, ?_⟩
    · rw [hstatuses, hadds.statuses, List.map_cons, List.append_assoc, List.singleton_append]
    · rw [hobservations, hadds.observations, List.flatMap_cons, List.append_assoc]

end Apply

/-! ### The bytes of a reply -/

section Bytes

variable {debug : String → String} {a : Adapter} {world : String → Responses} {crawls : Crawls}
  {going : Bool} {left : ℕ} {queries : List ResourceQuery}

/-- The bytes of the items of an array are the sum of the bytes of each; commas and brackets are
counted elsewhere. -/
lemma itemsSize_map {α : Type} (f : α → Json) (l : List α) :
    itemsSize (l.map f) = (l.map fun x => (f x).size).sum := by
  induction l with
  | nil => rfl
  | cons x l ih => rw [List.map_cons, itemsSize, ih, List.map_cons, List.sum_cons]

/-- Elements with a byte more each take as many bytes more as there are elements. -/
lemma sum_map_add_one {α : Type} (f : α → ℕ) (l : List α) :
    (l.map fun x => f x + 1).sum = (l.map f).sum + l.length := by
  rw [List.sum_map_add, List.map_const', List.sum_replicate, smul_eq_mul, mul_one]

/-- **What a reply takes**: its envelope, its entries and their commas, and its records, of which
the last one has no comma. -/
lemma size_reply_add (requestId : U64) (observations : List ObservationWire)
    (statuses : List StatusEntry) :
    (replyJson requestId (.ok ⟨observations, statuses⟩)).size + min 1 observations.length =
      envelopeBytes requestId + (statuses.map fun e => e.toJson.size).sum +
        (statuses.length - 1) + (observations.map cost).sum := by
  have hcost : (observations.map cost).sum =
      (observations.map fun o => o.toJson.size).sum + observations.length :=
    sum_map_add_one (fun o => o.toJson.size) observations
  simp only [envelopeBytes, replyJson, HistoryReply.toJson, Json.size, membersSize, itemsSize_map,
    itemsSize, List.length_cons, List.length_nil, List.length_map, hcost, List.map_nil]
  omega

/-- **What one line does to the bytes**: what it puts into the reply, and what it leaves of its
reservation and of the budget, is what was reserved and left, and what is unpaid.

**Proof sketch.** By the share of the query. An entry without a page takes its reservation, or more,
and what it takes beyond that is paid from what is left, as far as that goes. A page spends what it
was cut for, which is no more than what is left. -/
lemma Line.balance (l : Line) (hgoes : l.share.fails = false) :
    l.entry.toJson.size + (l.records.map cost).sum + l.unused + (l.left - l.spends) =
      statusBytes l.resourceId + l.left + l.unpaid := by
  have hentry : l.entry.toJson.size + l.unused = statusBytes l.resourceId + l.excess := by
    unfold Line.unused Line.excess
    omega
  cases hshare : l.share with
  | refused e =>
    rw [hshare] at hgoes
    cases hgoes
  | unmapped crawl e =>
    rw [hshare] at hgoes
    cases hgoes
  | entry e goesOn =>
    simp only [Line.records, Line.spends, Line.unpaid, hshare, List.map_nil, List.sum_nil]
    omega
  | page start crawl p =>
    obtain ⟨taken, rest, -, hobs, -, hbytes, hle, -⟩ := cutPage_spec p start l.room
    have hcost : ((cutPage p start l.room).observations.map cost).sum =
        (cutPage p start l.room).bytes := by rw [hobs, hbytes, spent]
    have hroom : l.room ≤ l.left := min_le_left _ _
    simp only [Line.records, Line.spends, Line.unpaid, hshare, hcost]
    omega

/-- **What the lines do to the bytes**, by induction on the queries. -/
lemma ledger_balance
    (hgoes : ∀ l ∈ ledger debug a world crawls going left queries, l.share.fails = false) :
    let lines := ledger debug a world crawls going left queries
    (lines.map fun l => l.entry.toJson.size).sum + ((lines.flatMap Line.records).map cost).sum +
        (lines.map Line.unused).sum + unspent left lines =
      reserved lines + left + (lines.map Line.unpaid).sum := by
  induction queries generalizing going left with
  | nil => simp [ledger, unspent, reserved]
  | cons q queries ih =>
    rw [ledger] at hgoes
    obtain ⟨hone, hrest⟩ := List.forall_mem_cons.mp hgoes
    have hbalance := Line.balance _ hone
    have hmore := ih hrest
    simp only [ledger, List.map_cons, List.sum_cons, List.flatMap_cons, List.map_append,
      List.sum_append, unspent, reserved] at hbalance hmore ⊢
    omega

/-- What is left after the reservations is the budget without the sum of them, or nothing. -/
lemma left_reserve (b : Budget) (resourceIds : List String) :
    (b.reserve resourceIds).left = b.left - (resourceIds.map statusBytes).sum := by
  induction resourceIds generalizing b with
  | nil => rfl
  | cons id resourceIds ih =>
    rw [Budget.reserve, List.foldl_cons, ← Budget.reserve, ih, List.map_cons, List.sum_cons,
      Budget.spend, Nat.sub_sub]

/-- The loop of a request does what its ledger says. -/
lemma serveAll_start_eq_apply (hnodup : (queries.map ResourceQuery.resourceId).Nodup) :
    queries.foldlM (serveQuery debug a world) (Reading.start crawls queries) =
      (ledgerOf debug a world crawls queries).foldlM (fun s l => l.apply s)
        (Reading.start crawls queries) := by
  have hleft : (Reading.start crawls queries).budget.left =
      Budget.new.left - (queries.map fun q => statusBytes q.resourceId).sum := by
    rw [Reading.start, left_reserve, List.map_map]
    rfl
  have hlines : queries.foldlM (serveQuery debug a world) (Reading.start crawls queries) =
      (ledger debug a world crawls true (Reading.start crawls queries).budget.left
        queries).foldlM (fun s l => l.apply s) (Reading.start crawls queries) :=
    serveAll_eq_apply hnodup (fun _ _ => rfl) rfl
  rw [hlines, hleft]
  rfl

/-- **The reply of a request** is made of the entries and the records of its ledger. -/
lemma historyRead_eq_ok {reply : HistoryReply}
    (h : (historyRead debug a world crawls queries).2 = .ok reply) :
    (∀ l ∈ ledgerOf debug a world crawls queries, l.share.fails = false) ∧
      reply = ⟨(ledgerOf debug a world crawls queries).flatMap Line.records,
        (ledgerOf debug a world crawls queries).map Line.entry⟩ := by
  unfold historyRead noRepeats at h
  split_ifs at h with hnodup
  simp only [serveAll_start_eq_apply hnodup] at h
  split at h
  · cases h
  rename_i s hs
  cases h
  obtain ⟨hgoes, hstatuses, hobservations⟩ := foldlM_apply_eq_ok hs
  refine ⟨hgoes, ?_⟩
  rw [hstatuses, hobservations]
  rfl

/-- The resources of a ledger are those of the queries. -/
lemma map_resourceId_ledger :
    (ledger debug a world crawls going left queries).map Line.resourceId =
      queries.map ResourceQuery.resourceId := by
  induction queries generalizing going left with
  | nil => rfl
  | cons q queries ih => rw [ledger, List.map_cons, List.map_cons, ih]

/-- What the lines of a request reserve. -/
lemma reserved_ledgerOf :
    reserved (ledgerOf debug a world crawls queries) =
      (queries.map fun q => statusBytes q.resourceId).sum := by
  have hids : (ledgerOf debug a world crawls queries).map Line.resourceId =
      queries.map ResourceQuery.resourceId := map_resourceId_ledger
  have hmap := congrArg (fun ids => (List.map statusBytes ids).sum) hids
  simp only [List.map_map] at hmap
  exact hmap

/-- **When the reply that the lines make fits a frame**: when the bytes that nothing was set aside
for are no more than those that were set aside and are not used.

**Proof sketch.** The lines put into the reply what was reserved, what was left at the start and
what is unpaid, less what is unused and what is left at the end (`ledger_balance`). What was
reserved and what was left at the start are together the budget and what the reservations ask for
beyond it, and the budget is 512 bytes short of a frame. -/
lemma overdraft_le_spare_iff (requestId : U64)
    (hgoes : ∀ l ∈ ledgerOf debug a world crawls queries, l.share.fails = false) :
    let lines := ledgerOf debug a world crawls queries
    (replyJson requestId (.ok ⟨lines.flatMap Line.records, lines.map Line.entry⟩)).size ≤
        MAX_FRAME_BYTES ↔ overdraft requestId lines ≤ spare lines := by
  intro lines
  have hsize := size_reply_add requestId (lines.flatMap Line.records) (lines.map Line.entry)
  have hreserved : reserved lines = (queries.map fun q => statusBytes q.resourceId).sum :=
    reserved_ledgerOf
  have hbalance : (lines.map fun l => l.entry.toJson.size).sum +
      ((lines.flatMap Line.records).map cost).sum + (lines.map Line.unused).sum +
        unspent (Budget.new.left - (queries.map fun q => statusBytes q.resourceId).sum) lines =
      reserved lines + (Budget.new.left - (queries.map fun q => statusBytes q.resourceId).sum) +
        (lines.map Line.unpaid).sum := ledger_balance hgoes
  rw [← hreserved] at hbalance
  have hnew : Budget.new.left + ENVELOPE_BYTES = MAX_FRAME_BYTES := rfl
  have hentries : ((lines.map Line.entry).map fun e => e.toJson.size).sum =
      (lines.map fun l => l.entry.toJson.size).sum := by rw [List.map_map]; rfl
  rw [hentries, List.length_map] at hsize
  unfold overdraft spare
  omega

end Bytes

end Sumer.Bitcoin
