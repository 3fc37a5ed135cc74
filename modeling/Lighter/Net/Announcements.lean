import Mathlib.Data.Finset.Basic
import Mathlib.Data.Finset.Lattice.Lemmas
import Lighter.Docker.Forwards

/-!
# Announced names

A change of the name table is announced in two parts: goodbyes for the addresses that are gone,
and every address of a name that gained one. All of these records carry the cache-flush bit, the
goodbyes too. The receiver here is the one multicast DNS describes, and its cache is compared
with the table after every change.
-/

namespace Lighter.Mdns

open List Transition
open Docker (IpAddr)

/-- A name as text and one of its addresses. -/
abbrev Pair := List UInt8 × IpAddr

abbrev Records := List (List UInt8 × List IpAddr)

/-- What one record of a message says. -/
structure Heard where
  address : Pair
  ttl : Nat
  flush : Bool

def ttl : Nat := 10

/-- A name on the wire: its labels between dots, each after its length. -/
def writeName (name : List UInt8) : List UInt8 :=
  ((name.splitOn 46).filter (· ≠ [])).flatMap (fun label => .ofNat label.length :: label) ++ [0]

def wire (pair : Pair) : Pair := (writeName pair.1, pair.2)

/-- Only an answer to a legacy question, which it echoes, does without the flush bit. -/
def responseTo (questions : Nat) (answers : List Pair) (ttl : Nat) : List Heard :=
  answers.map (⟨wire ·, ttl, questions == 0⟩)

def response : List Pair → Nat → List Heard := responseTo 0

/-- The announced addresses. A name that starts with `*.` is never announced. -/
def pairs (records : Records) : List Pair :=
  (records.filter (! [42, 46].isPrefixOf ·.1)).flatMap fun (name, ips) => ips.map (name, ·)

section

variable (held records : Records)

def gone : List Pair := (pairs held).filter (· ∉ pairs records)

/-- The names that gained an address. -/
def changed : List (List UInt8) := ((pairs records).filter (· ∉ pairs held)).map Prod.fst

def fresh : List Pair := (pairs records).filter (·.1 ∈ changed held records)

end

/-- Parts of at most sixteen; as many turns as there are records are enough. -/
def chunks {α : Type*} : Nat → List α → List (List α)
  | 0, _ => []
  | _, [] => []
  | turns + 1, records => records.take 16 :: chunks turns (records.drop 16)

/-- The messages sent when `records` replaces `held`. -/
def set (held records : Records) : List (List Heard) :=
  [(gone held records, 0), (fresh held records, ttl)].flatMap fun (records, ttl) =>
    (chunks records.length records).map (response · ttl)

/-- Of one name and one type. -/
def Same (one other : Pair) : Prop :=
  one.1 = other.1 ∧ (one.2 matches .v4 _) = (other.2 matches .v4 _)

instance : DecidableRel Same := fun _ _ => inferInstanceAs (Decidable (_ ∧ _))

/-- A cache while a batch is heard: what it held before, and what the batch brought. -/
structure Cache where
  before : Finset Pair
  batch : Finset Pair

def Cache.hear (cache : Cache) (heard : Heard) : Cache :=
  let before := if heard.flush then cache.before.filter (¬ Same heard.address ·) else cache.before
  if heard.ttl = 0 then ⟨before.erase heard.address, cache.batch.erase heard.address⟩
  else ⟨before, insert heard.address cache.batch⟩

/-- The addresses a cache should hold. -/
def addresses (records : Records) : Finset Pair := ((pairs records).map wire).toFinset

/-- The table and the cache of the Mac, which hears all that is sent. -/
structure Link where
  records : Records
  cache : Finset Pair

def Link.set (link : Link) (records : Records) : Link :=
  let heard := (Mdns.set link.records records).flatten.foldl Cache.hear ⟨link.cache, ∅⟩
  ⟨records, heard.before ∪ heard.batch⟩

def Link.Right (link : Link) : Prop := link.cache = addresses link.records

/-- Every address of the new table is announced, or no record of its name and type is. -/
def Spared (held records : Records) : Prop :=
  ∀ kept ∈ pairs records, (∃ pair ∈ fresh held records, wire pair = wire kept) ∨
    ∀ pair ∈ gone held records ++ fresh held records, ¬ Same (wire pair) (wire kept)

theorem flatten_chunks {α : Type*} (turns : Nat) (records : List α)
    (enough : records.length ≤ turns) : (chunks turns records).flatten = records := by
  induction turns generalizing records with
  | zero =>
    rw [length_eq_zero_iff.mp (Nat.le_zero.mp enough)]
    rfl
  | succ turns ih =>
    cases records with
    | nil => rfl
    | cons record rest =>
      have fewer : ((record :: rest).drop 16).length ≤ turns := by
        rw [length_drop]
        omega
      rw [chunks, flatten_cons, ih _ fewer, take_append_drop]
      exact cons_ne_nil _ _

/-- Cutting into messages changes nothing of what is heard. -/
theorem flatten_set (held records : Records) : (set held records).flatten =
    response (gone held records) 0 ++ response (fresh held records) ttl := by
  have whole (answers : List Pair) (ttl : Nat) :
      ((chunks answers.length answers).map (response · ttl)).flatten = response answers ttl := by
    conv_rhs => rw [← flatten_chunks _ answers le_rfl]
    exact map_flatten.symm
  simp [set, whole]

theorem Same.refl (pair : Pair) : Same pair pair := ⟨rfl, rfl⟩

theorem hear_flush (cache : Cache) (address : Pair) (ttl : Nat) :
    cache.hear ⟨address, ttl, true⟩ = ⟨cache.before.filter (¬ Same address ·),
      if ttl = 0 then cache.batch.erase address else insert address cache.batch⟩ := by
  by_cases bye : ttl = 0
  · have flushed : address ∉ cache.before.filter (¬ Same address ·) :=
      fun stays => (Finset.mem_filter.mp stays).2 (.refl _)
    simp only [Cache.hear, if_pos bye, if_true, Finset.erase_eq_of_notMem flushed]
  · simp [Cache.hear, bye]

/-- What goes while a part is heard, and what comes. -/
theorem hear_response (answers : List Pair) (ttl : Nat) (cache : Cache) :
    (response answers ttl).foldl Cache.hear cache =
      ⟨cache.before.filter fun pair => ∀ answer ∈ answers, ¬ Same (wire answer) pair,
        if ttl = 0 then cache.batch \ (answers.map wire).toFinset
        else cache.batch ∪ (answers.map wire).toFinset⟩ := by
  induction answers generalizing cache with
  | nil => simp [response, responseTo]
  | cons answer rest ih =>
    refine (ih (cache.hear ⟨wire answer, ttl, true⟩)).trans ?_
    rw [hear_flush, Finset.filter_filter, map_cons, toFinset_cons]
    simp only [forall_mem_cons]
    split_ifs
    · rw [Finset.sdiff_insert, Finset.erase_sdiff_comm]
    · rw [Finset.insert_union, Finset.union_insert]

theorem mem_addresses {records : Records} {pair : Pair} :
    pair ∈ addresses records ↔ ∃ kept ∈ pairs records, wire kept = pair := by
  simp [addresses]

/-- What the cache holds after a change. -/
theorem mem_set {link : Link} {records : Records} {pair : Pair} :
    pair ∈ (link.set records).cache ↔
      (pair ∈ link.cache ∧ ∀ heard ∈ gone link.records records ++ fresh link.records records,
        ¬ Same (wire heard) pair) ∨
      ∃ heard ∈ fresh link.records records, wire heard = pair := by
  rw [Link.set, flatten_set, foldl_append, hear_response, hear_response]
  simp [ttl, or_imp, forall_and, and_assoc]

theorem right_set_iff {link : Link} (records : Records) (right : link.Right) :
    (link.set records).Right ↔ Spared link.records records := by
  constructor
  · intro whole kept inside
    have held : wire kept ∈ (link.set records).cache := by
      rw [whole]
      exact mem_addresses.mpr ⟨kept, inside, rfl⟩
    exact (mem_set.mp held).symm.imp id And.right
  intro spared
  ext pair
  rw [mem_set, right]
  change _ ↔ pair ∈ addresses records
  rw [mem_addresses, mem_addresses]
  constructor
  · rintro (⟨⟨kept, inside, rfl⟩, quiet⟩ | ⟨heard, inside, rfl⟩)
    · -- an address that is gone would have been heard of
      by_contra missing
      refine quiet kept (mem_append_left _ (mem_filter.mpr ⟨inside, ?_⟩)) (.refl _)
      exact decide_eq_true fun stays => missing ⟨kept, stays, rfl⟩
    · exact ⟨heard, mem_of_mem_filter inside, rfl⟩
  · rintro ⟨kept, inside, rfl⟩
    refine (spared kept inside).symm.imp (fun quiet => ⟨⟨kept, ?_, rfl⟩, quiet⟩) id
    -- an address that is new is announced
    by_contra new
    have names : kept.1 ∈ changed link.records records :=
      mem_map_of_mem (mem_filter.mpr ⟨inside, decide_eq_true new⟩)
    exact quiet kept (mem_append_right _ (mem_filter.mpr ⟨inside, decide_eq_true names⟩)) (.refl _)

/-- The cache is right after every change exactly if no change announces some of a name's records
of a type and leaves others of them, that stay, unannounced. -/
theorem cache_follows_iff (records : Records) (changes : List Records) :
    (∀ earlier, earlier <+: changes →
      (run Link.set ⟨records, addresses records⟩ earlier).Right) ↔
    Legal (fun link => Spared link.records) Link.set ⟨records, addresses records⟩ changes :=
  holds_throughout_iff _ _ (fun _ => True) Link.Right (fun _ records _ => right_set_iff records) _
    changes (fun _ _ => trivial) rfl

namespace Shrinking

def before : Records := [([97], [.v4 1, .v4 2])]

def after : Records := [([97], [.v4 1])]

/-- The goodbye for one address flushes the other. -/
theorem remaining_flushed :
    ((⟨before, addresses before⟩ : Link).set after).cache = ∅ ∧ addresses after ≠ ∅ := by
  decide

end Shrinking

end Lighter.Mdns
