import Mathlib
import Flowchart.Session.Snapshot

/-!
# The listing of variables

Variables are listed in the order of the bytes of their names, each once. A listing is determined by
its members, so it does not show in which order variables were set, how often, or in which order a
hash table gives them out.
-/

namespace Flowchart

/-! ### The order of bytes -/

namespace Text

def bytes (s : String) : List UInt8 := s.toByteArray.data.toList

theorem bytes_eq_flatMap (s : String) : bytes s = s.toList.flatMap String.utf8EncodeChar := by
  rw [bytes, ← String.utf8Encode_toList, List.utf8Encode, List.data_toByteArray]

theorem cons_ofNat_lt_iff {a b : Nat} {as bs : List UInt8} (ha : a < 256) (hb : b < 256) :
    UInt8.ofNat a :: as < UInt8.ofNat b :: bs ↔ a < b ∨ a = b ∧ as < bs := by
  rw [List.cons_lt_cons_iff, UInt8.ofNat_lt_iff_lt ha hb, ← UInt8.toNat_inj,
    UInt8.toNat_ofNat_of_lt' ha, UInt8.toNat_ofNat_of_lt' hb]

/-- The bytes of a character come before those of a later one, whatever follows either. -/
theorem encode_append_lt {c d : Char} (h : c < d) (cs ds : List UInt8) :
    String.utf8EncodeChar c ++ cs < String.utf8EncodeChar d ++ ds := by
  have hlt : c.val.toNat < d.val.toNat := h
  have hmax : d.val.toNat < 0x110000 := by
    rcases d.valid with hvalid | hvalid <;> simp only [UInt32.toNat] at * <;> omega
  unfold String.utf8EncodeChar
  generalize c.val.toNat = m at *
  generalize d.val.toNat = n at *
  dsimp only
  -- Written as digits to the base 64, the code points are compared by linear arithmetic.
  have hdigits (k : Nat) : k / 4096 = k / 64 / 64 ∧ k / 262144 = k / 64 / 64 / 64 := by omega
  rw [(hdigits m).1, (hdigits m).2, (hdigits n).1, (hdigits n).2]
  split_ifs <;>
    simp (disch := omega) only [List.cons_append, List.nil_append, cons_ofNat_lt_iff] <;> omega

/-- UTF-8 keeps the order of texts, character by character. -/
theorem flatMap_encode_lt {cs ds : List Char} (h : cs < ds) :
    cs.flatMap String.utf8EncodeChar < ds.flatMap String.utf8EncodeChar := by
  induction h with
  | nil =>
      rename_i d ds
      cases hd : String.utf8EncodeChar d with
      | nil => exact absurd hd String.utf8EncodeChar_ne_nil
      | cons b bs =>
          rw [List.flatMap_cons, hd, List.cons_append]
          exact List.nil_lt_cons _ _
  | rel h => exact encode_append_lt h _ _
  | cons _ ih => exact List.append_left_lt ih

/-- Texts are in the order of their bytes. -/
theorem bytes_lt_bytes {s t : String} (h : s < t) : bytes s < bytes t := by
  rw [bytes_eq_flatMap, bytes_eq_flatMap]
  exact flatMap_encode_lt (String.lt_iff.mp h)

theorem bytes_injective : Function.Injective bytes := by
  intro s t h
  exact String.toByteArray_inj.mp (ByteArray.ext (Array.toList_inj.mp h))

end Text

/-! ### Listings by their members -/

theorem nodup_of_sorted {bindings : List (String × Value)}
    (h : bindings.Pairwise (·.1 < ·.1)) : bindings.Nodup :=
  h.imp fun hlt heq => Std.ne_of_lt hlt (congrArg Prod.fst heq)

/-- Two listings in the order of names are the same if they have the same members. -/
theorem eq_of_mem_iff {first second : List (String × Value)} (hfirst : first.Pairwise (·.1 < ·.1))
    (hsecond : second.Pairwise (·.1 < ·.1)) (h : ∀ binding, binding ∈ first ↔ binding ∈ second) :
    first = second := by
  have hperm : first.Perm second :=
    (List.perm_ext_iff_of_nodup (nodup_of_sorted hfirst) (nodup_of_sorted hsecond)).mpr h
  exact hperm.eq_of_pairwise (fun _ _ _ _ hab hba => absurd hba (String.lt_asymm hab)) hfirst
    hsecond

namespace Environment

theorem mem_bindings_iff {environment : Environment} {name : String} {value : Value} :
    (name, value) ∈ environment.bindings ↔ environment.get? name = some value := by
  rw [get?, List.lookup_eq_some_iff]
  constructor
  · intro hmem
    obtain ⟨front, back, hsplit⟩ := List.append_of_mem hmem
    refine ⟨front, back, hsplit, fun binding hbinding => ?_⟩
    have hsorted := environment.sorted
    rw [hsplit, List.pairwise_append] at hsorted
    have hlt := hsorted.2.2 binding hbinding _ List.mem_cons_self
    exact bne_iff_ne.mpr fun heq => String.lt_irrefl name (heq ▸ hlt)
  · rintro ⟨front, back, hsplit, -⟩
    rw [hsplit]
    exact List.mem_append_right _ List.mem_cons_self

/-- Bindings that answer alike are the same list. -/
theorem bindings_eq_of_get?_eq {first second : Environment}
    (h : ∀ name, first.get? name = second.get? name) : first.bindings = second.bindings := by
  refine eq_of_mem_iff first.sorted second.sorted fun ⟨name, value⟩ => ?_
  rw [mem_bindings_iff, mem_bindings_iff, h]

theorem getElem?_ofList_bindings (environment : Environment) (name : String) :
    (Std.TreeMap.ofList environment.bindings)[name]? = environment.get? name := by
  cases hget : environment.get? name with
  | some value =>
      have hdistinct : environment.bindings.Pairwise fun a b => ¬ compare a.1 b.1 = .eq :=
        environment.sorted.imp fun hlt heq =>
          Std.ne_of_lt hlt (Std.LawfulEqCmp.eq_of_compare heq)
      exact Std.TreeMap.getElem?_ofList_of_mem (by simp) hdistinct (mem_bindings_iff.mpr hget)
  | none =>
      refine Std.TreeMap.getElem?_ofList_of_contains_eq_false
        (Bool.eq_false_iff.mpr fun hname => ?_)
      obtain ⟨binding, hmem, rfl⟩ := List.mem_map.mp (List.contains_iff_mem.mp hname)
      rw [mem_bindings_iff.mp hmem] at hget
      cases hget

/-- Gathering the listing in an ordered map and listing that map changes nothing. -/
theorem toList_ofList_bindings (environment : Environment) :
    (Std.TreeMap.ofList environment.bindings).toList = environment.bindings := by
  have hordered := @Std.TreeMap.ordered_keys_toList _ _ _ (.ofList environment.bindings) _
  refine eq_of_mem_iff (hordered.imp fun h => compareOfLessAndEq_eq_lt.mp h) environment.sorted
    fun ⟨name, value⟩ => ?_
  rw [Std.TreeMap.mem_toList_iff_getElem?_eq_some, getElem?_ofList_bindings, mem_bindings_iff]

end Environment

/-! ### The last of its kind -/

section LastOf

variable {α : Type} {p : α → Prop} {xs : List α} {x : α}

def LastOf (p : α → Prop) (xs : List α) (x : α) : Prop :=
  ∃ before after, xs = before ++ x :: after ∧ p x ∧ ∀ later ∈ after, ¬ p later

theorem not_lastOf_nil : ¬ LastOf p [] x := by
  rintro ⟨before, after, hsplit, -⟩
  simp at hsplit

theorem lastOf_concat_iff {last : α} :
    LastOf p (xs ++ [last]) x ↔ p last ∧ last = x ∨ ¬ p last ∧ LastOf p xs x := by
  constructor
  · rintro ⟨before, after, hsplit, hx, hlater⟩
    rcases List.eq_nil_or_concat after with rfl | ⟨after, other, rfl⟩
    · obtain rfl := List.singleton_inj.mp (List.append_inj' hsplit rfl).2
      exact .inl ⟨hx, rfl⟩
    · rw [List.concat_eq_append] at hsplit hlater
      rw [← List.cons_append, ← List.append_assoc] at hsplit
      obtain ⟨rfl, hlast⟩ := List.append_inj' hsplit rfl
      obtain rfl := List.singleton_inj.mp hlast
      exact .inr ⟨hlater _ (by simp), before, after, rfl, hx, fun later hmem =>
        hlater later (List.mem_append_left _ hmem)⟩
  · rintro (⟨hlast, rfl⟩ | ⟨hlast, before, after, rfl, hx, hlater⟩)
    · exact ⟨xs, [], rfl, hlast, by simp⟩
    · refine ⟨before, after ++ [last], by simp, hx, fun later hmem => ?_⟩
      rcases List.mem_append.mp hmem with hmem | hmem
      · exact hlater later hmem
      · exact List.mem_singleton.mp hmem ▸ hlast

end LastOf

/-! ### Histories -/

inductive Update where
  | set (name : String) (value : Value)
  | clear

namespace Update

def Touches (name : String) : Update → Prop
  | set other _ => other = name
  | clear => True

/-- The last update that touched the variable of this name gave it this value. -/
def Gives (updates : List Update) (name : String) (value : Value) : Prop :=
  LastOf (Touches name) updates (set name value)

end Update

def Environment.update (environment : Environment) : Update → Environment
  | .set name value => environment.set name value
  | .clear => .empty

def Environment.ofUpdates (updates : List Update) : Environment := updates.foldl update .empty

/-- A variable has the value that the last update to touch it has given it. -/
theorem Environment.get?_ofUpdates_iff {updates : List Update} {name : String} {value : Value} :
    (ofUpdates updates).get? name = some value ↔ Update.Gives updates name value := by
  induction updates using List.reverseRecOn with
  | nil => exact iff_of_false (by simp [ofUpdates, empty, get?]) not_lastOf_nil
  | append_singleton updates last ih =>
      rw [Update.Gives, lastOf_concat_iff, ← Update.Gives, ← ih, ofUpdates, List.foldl_concat,
        ← ofUpdates]
      cases last with
      | set other given =>
          rw [update, get?_set, Update.Touches]
          by_cases hname : name = other
          · subst hname
            simp
          · simp [hname, Ne.symm hname]
      | clear => simp [update, empty, get?, Update.Touches]

/-! ### Hash tables -/

/-- The variables of a run in a table without an order of its own. -/
abbrev VariableTable := Std.HashMap String Value

namespace VariableTable

def update (table : VariableTable) : Update → VariableTable
  | .set name value => table.insert name value
  | .clear => ∅

def ofUpdates (updates : List Update) : VariableTable := updates.foldl update ∅

theorem getElem?_ofUpdates (updates : List Update) (name : String) :
    (ofUpdates updates)[name]? = (Environment.ofUpdates updates).get? name := by
  induction updates using List.reverseRecOn with
  | nil => exact Std.HashMap.getElem?_empty
  | append_singleton updates last ih =>
      rw [ofUpdates, List.foldl_concat, ← ofUpdates, Environment.ofUpdates, List.foldl_concat,
        ← Environment.ofUpdates]
      cases last with
      | set other given =>
          rw [update, Environment.update, Environment.get?_set, Std.HashMap.getElem?_insert, ih]
          simp only [beq_iff_eq, eq_comm (a := name)]
      | clear => exact Std.HashMap.getElem?_empty

/-- The table holds what the environment holds. -/
theorem mem_toList_ofUpdates_iff {updates : List Update} {name : String} {value : Value} :
    (name, value) ∈ (ofUpdates updates).toList
      ↔ (name, value) ∈ (Environment.ofUpdates updates).bindings := by
  rw [Std.HashMap.mem_toList_iff_getElem?_eq_some, getElem?_ofUpdates, Environment.mem_bindings_iff]

theorem toList_ofUpdates_perm (updates : List Update) :
    (ofUpdates updates).toList.Perm (Environment.ofUpdates updates).bindings := by
  have htable : (ofUpdates updates).toList.Nodup :=
    Std.HashMap.distinct_keys_toList.imp fun hne heq => by simp [heq] at hne
  have hlisting := nodup_of_sorted (Environment.ofUpdates updates).sorted
  exact (List.perm_ext_iff_of_nodup htable hlisting).mpr fun _ => mem_toList_ofUpdates_iff

def isInOrder (first second : String × Value) : Bool := Text.bytes first.1 ≤ Text.bytes second.1

def sortByName (entries : List (String × Value)) : List (String × Value) :=
  entries.mergeSort isInOrder

theorem isInOrder_iff {first second : String × Value} :
    isInOrder first second ↔ Text.bytes first.1 ≤ Text.bytes second.1 := decide_eq_true_iff

/-- Sorted entries are in the order of their names. -/
theorem pairwise_sortByName (entries : List (String × Value)) :
    (sortByName entries).Pairwise fun first second => isInOrder first second := by
  refine List.pairwise_mergeSort (fun a b c hab hbc => ?_) (fun a b => ?_) entries
  · exact isInOrder_iff.mpr (List.le_trans (isInOrder_iff.mp hab) (isInOrder_iff.mp hbc))
  · rw [Bool.or_eq_true, isInOrder_iff, isInOrder_iff]
    exact List.le_total _ _

/-- In whatever order a table gives out its entries, sorting them makes the listing. -/
theorem sortByName_of_perm {updates : List Update} {entries : List (String × Value)}
    (h : entries.Perm (ofUpdates updates).toList) :
    sortByName entries = (Environment.ofUpdates updates).bindings := by
  have hperm : (sortByName entries).Perm (Environment.ofUpdates updates).bindings :=
    (List.mergeSort_perm _ _).trans (h.trans (toList_ofUpdates_perm updates))
  have hlisting := (Environment.ofUpdates updates).sorted.imp fun hlt =>
    isInOrder_iff.mpr (List.le_of_lt (Text.bytes_lt_bytes hlt))
  refine hperm.eq_of_pairwise ?_ (pairwise_sortByName entries) hlisting
  rintro ⟨name, value⟩ ⟨other, given⟩ hfirst hsecond hle hge
  obtain rfl : name = other := Text.bytes_injective
    (List.le_antisymm (isInOrder_iff.mp hle) (isInOrder_iff.mp hge))
  have hvalue := Environment.mem_bindings_iff.mp (hperm.mem_iff.mp hfirst)
  rw [Environment.mem_bindings_iff.mp hsecond] at hvalue
  rw [Option.some_inj.mp hvalue]

end VariableTable

/-! ### Sessions -/

/-- Two sessions are at one place in one state, have sent the same lines and counted as many calls,
and every name has the same value in both. -/
structure Session.LooksLike (first second : Session) : Prop where
  node : first.phase.node? = second.phase.node?
  status : first.phase.statusName = second.phase.statusName
  log : first.log = second.log
  question : first.phase.question? = second.phase.question?
  failure : first.phase.failure? = second.phase.failure?
  steps : first.steps = second.steps
  values : ∀ name, first.environment.get? name = second.environment.get? name

/-- Sessions that look alike have the same snapshot. -/
theorem Session.LooksLike.snapshot_eq {first second : Session} (h : first.LooksLike second) :
    first.snapshot = second.snapshot := by
  rw [snapshot, snapshot, h.node, h.status, h.log, h.question, h.failure, h.steps,
    Environment.bindings_eq_of_get?_eq h.values]

/-- **The listing of variables.** After any updates the names are listed in the order of their
bytes, each once, and a name is listed with a value exactly if the last update that touched it gave
it that value. A hash table after the same updates answers the same and holds as many entries, and
sorting these makes the listing, in whatever order the table gives them out; so does gathering the
sorted ones in an ordered map. Updates after which every name has the same value lead to the same
listing, and sessions that agree in all but the history of their variables show the same snapshot,
written on one line or on many. -/
theorem listing_is_canonical (updates : List Update) :
    let environment := Environment.ofUpdates updates
    let table := VariableTable.ofUpdates updates
    (environment.bindings.map Prod.fst).Pairwise
      (fun name other => Text.bytes name < Text.bytes other)
    ∧ (∀ name value, (name, value) ∈ environment.bindings ↔ Update.Gives updates name value)
    ∧ (∀ name value, environment.get? name = some value ↔ Update.Gives updates name value)
    ∧ (∀ name, table[name]? = environment.get? name)
    ∧ environment.bindings.length = environment.size ∧ environment.size = table.size
    ∧ (∀ entries, entries.Perm table.toList →
      VariableTable.sortByName entries = environment.bindings
        ∧ (Std.TreeMap.ofList (VariableTable.sortByName entries)).toList = environment.bindings)
    ∧ (∀ others, (∀ name, environment.get? name = (Environment.ofUpdates others).get? name) →
      environment.bindings = (Environment.ofUpdates others).bindings)
    ∧ ∀ first second : Session, first.LooksLike second →
      first.snapshot = second.snapshot
        ∧ first.snapshot.toJson.compact = second.snapshot.toJson.compact
        ∧ first.snapshot.toJson.pretty = second.snapshot.toJson.pretty := by
  intro environment table
  refine ⟨?_, fun name value => ?_, fun name value => Environment.get?_ofUpdates_iff,
    VariableTable.getElem?_ofUpdates updates, rfl, ?_, fun entries hentries => ?_,
    fun others => Environment.bindings_eq_of_get?_eq, fun first second hlooks => ?_⟩
  · exact List.pairwise_map.mpr (environment.sorted.imp Text.bytes_lt_bytes)
  · rw [Environment.mem_bindings_iff, Environment.get?_ofUpdates_iff]
  · exact (VariableTable.toList_ofUpdates_perm updates).length_eq.symm.trans
      Std.HashMap.length_toList
  · rw [VariableTable.sortByName_of_perm hentries]
    exact ⟨rfl, environment.toList_ofList_bindings⟩
  · rw [hlooks.snapshot_eq]
    exact ⟨rfl, rfl, rfl⟩

/-- A name that is set, cleared and set twice more is listed once, with its last value, and behind
the names of basic Latin letters. -/
theorem listing_is_canonical_accented_name :
    let graph : Graph :=
      ⟨[⟨0, .start, "", ""⟩], [], ⟨0, .start, "", ""⟩, by decide, by decide, by decide⟩
    let updates : List Update :=
      [.set "é" (.text "x"), .set "b" (.bool true), .clear, .set "é" (.text "y"),
        .set "za" (.bool false), .set "z" (.text "w"), .set "é" (.bool true)]
    let others : List Update :=
      [.set "z" (.text "w"), .set "é" (.bool true), .set "za" (.bool false)]
    let first := { Session.new graph 5 with environment := .ofUpdates updates }
    let second := { Session.new graph 5 with environment := .ofUpdates others }
    (Environment.ofUpdates updates).bindings
        = [("z", .text "w"), ("za", .bool false), ("é", .bool true)]
      ∧ (Environment.ofUpdates updates).bindings = (Environment.ofUpdates others).bindings
      ∧ VariableTable.sortByName (VariableTable.ofUpdates updates).toList.reverse
        = (Environment.ofUpdates updates).bindings
      ∧ first.snapshot = second.snapshot := by
  intro graph updates others first second
  obtain ⟨-, -, -, -, -, -, hsorted, hsame, hsnapshot⟩ := listing_is_canonical updates
  have hget (name : String) :
      (Environment.ofUpdates updates).get? name = (Environment.ofUpdates others).get? name := by
    simp only [updates, others, Environment.ofUpdates, List.foldl, Environment.update,
      Environment.get?_set]
    grind
  exact ⟨by decide +kernel, hsame others hget, (hsorted _ (List.reverse_perm _)).1,
    (hsnapshot first second ⟨rfl, rfl, rfl, rfl, rfl, rfl, hget⟩).1⟩

end Flowchart
