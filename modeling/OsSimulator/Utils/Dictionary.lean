import Mathlib.Data.Int.Notation
import Mathlib.Data.List.Dedup
import Mathlib.Data.List.Find
import Mathlib.Data.List.Induction
import OsSimulator.Library.ChainedTable

set_option relaxedAutoImplicit false
set_option autoImplicit false

/-!
# The dictionary

`utils/collections/dictionary.c`: a hash table with chaining. A key is the bytes of a C string, and
a pointer to data may be null.

## Main definitions

* `HashElement`, `Dictionary` — `t_hash_element` and `t_dictionary`.
* `dictionaryHash`, `Dictionary.find`, `Dictionary.put`, `Dictionary.get`, `Dictionary.hasKey` — the
  functions.
* `Dictionary.Represents` — the dictionary is the map that a history of puts makes.

## Main results

* `Dictionary.represents_put` — a put adds to the history.
* `Dictionary.isMap_runAll` — after any calls the dictionary is a finite map.
-/

namespace OsSimulator

universe u

/-- `t_hash_element`, without the link to the next one. -/
structure HashElement (α : Type u) where
  key : List UInt8
  hashcode : UInt32
  data : Option α
  deriving DecidableEq, Repr

/-- `t_dictionary`: a chain for each bucket. `table_size` is the number of buckets. -/
structure Dictionary (α : Type u) where
  elements : List (List (HashElement α))
  elementsAmount : ℤ
  deriving DecidableEq, Repr

/-- `DICTIONARY_INITIAL_SIZE`. -/
def dictionaryInitialSize : ℕ := 20

/-- `dictionary_create`. -/
def dictionaryCreate {α : Type u} : Dictionary α :=
  ⟨List.replicate dictionaryInitialSize [], 0⟩

/-- `dictionary_hash`, the one-at-a-time hash. -/
def dictionaryHash (key : List UInt8) : UInt32 :=
  let hash := key.foldl (fun (hash : UInt32) c =>
    let hash := hash + c.toUInt32
    let hash := hash + (hash <<< 10)
    hash ^^^ (hash >>> 6)) 0
  let hash := hash + (hash <<< 3)
  let hash := hash ^^^ (hash >>> 11)
  hash + (hash <<< 15)

/-- The bucket of a key. -/
def bucket (tableSize : ℕ) (key : List UInt8) : ℕ := (dictionaryHash key).toNat % tableSize

namespace HashElement

variable {α : Type u}

/-- The test of `dictionary_find`. -/
def isOf (hashcode : UInt32) (key : List UInt8) (element : HashElement α) : Bool :=
  element.hashcode == hashcode && element.key == key

/-- The chain after `existing->data = data`. -/
def setData (hashcode : UInt32) (key : List UInt8) (data : Option α) :
    List (HashElement α) → List (HashElement α)
  | [] => []
  | element :: rest =>
    if element.isOf hashcode key then { element with data := data } :: rest
    else element :: setData hashcode key data rest

end HashElement

namespace Dictionary

variable {α : Type u}

/-- `dictionary_find`. -/
def find (key : List UInt8) (self : Dictionary α) : Option (HashElement α) :=
  self.elements[bucket self.elements.length key]?.bind fun chain =>
    chain.find? fun element => element.isOf (dictionaryHash key) key

/-- `dictionary_put`. -/
def put (key : List UInt8) (data : Option α) (self : Dictionary α) : Dictionary α :=
  match self.find key with
  | some _ => { self with
      elements := self.elements.modify (bucket self.elements.length key)
        (HashElement.setData (dictionaryHash key) key data) }
  | none => { self with
      elements := self.elements.modify (bucket self.elements.length key)
        (⟨key, dictionaryHash key, data⟩ :: ·)
      elementsAmount := self.elementsAmount + 1 }

/-- `dictionary_get`. -/
def get (key : List UInt8) (self : Dictionary α) : Option α :=
  match self.find key with
  | some element => element.data
  | none => none

/-- `dictionary_has_key`. -/
def hasKey (key : List UInt8) (self : Dictionary α) : Bool := (self.find key).isSome

end Dictionary

/-- The calls on a dictionary. -/
inductive DictionaryCall (α : Type u)
  | put (key : List UInt8) (data : Option α)
  | get (key : List UInt8)
  | hasKey (key : List UInt8)
  deriving DecidableEq, Repr

namespace DictionaryCall

variable {α : Type u}

/-- The dictionary after a call. -/
def run (self : Dictionary α) : DictionaryCall α → Dictionary α
  | .put key data => self.put key data
  | .get _ => self
  | .hasKey _ => self

/-- The dictionary after calls from its creation on. -/
def runAll (calls : List (DictionaryCall α)) : Dictionary α := calls.foldl run dictionaryCreate

/-- What was put, the last one first. -/
def puts (calls : List (DictionaryCall α)) : List (List UInt8 × Option α) :=
  calls.reverse.filterMap fun
    | .put key data => some (key, data)
    | _ => none

end DictionaryCall

/-! ## The dictionary as a map -/

section Map

-- what the hash is does not matter, and it is slow to unfold
attribute [local irreducible] dictionaryHash

namespace Dictionary

variable {α : Type u} {d : Dictionary α} {history : List (List UInt8 × Option α)}

/-- **The dictionary is the map that a history of puts makes**, the last one first: the table is one
of chains by the hash of the keys, every stored hash is right, a key has the data that was last put
under it, and the number of elements is right. -/
structure Represents (d : Dictionary α) (history : List (List UInt8 × Option α)) : Prop where
  chained : Chained HashElement.key (bucket d.elements.length) d.elements
  hashed : ∀ element ∈ d.elements.flatten, element.hashcode = dictionaryHash element.key
  data : ∀ key, (lookupKey HashElement.key key d.elements.flatten).map HashElement.data =
    history.lookup key
  amount : d.elementsAmount = d.elements.flatten.length

/-- `dictionary_find` finds the element of the key. -/
lemma Represents.find_eq (h : d.Represents history) (key : List UInt8) :
    d.find key = lookupKey HashElement.key key d.elements.flatten := by
  rw [← h.chained.lookupKey_chain key, find]
  cases hchain : d.elements[bucket d.elements.length key]? with
  | none => rfl
  | some chain =>
    rw [Option.bind_some, Option.bind_some, lookupKey]
    -- the stored hash of an equal key is the hash of the key
    refine List.find?_congr fun element helement => ?_
    have hmem : element ∈ d.elements.flatten :=
      List.mem_flatten.2 ⟨chain, List.mem_of_getElem? hchain, helement⟩
    have hhash := h.hashed element hmem
    by_cases hkey : element.key = key
    · simp [HashElement.isOf, hkey, hhash]
    · simp [HashElement.isOf, hkey]

/-- An empty dictionary is the map of no put. -/
lemma represents_create : (dictionaryCreate : Dictionary α).Represents [] := by
  have hempty : (dictionaryCreate : Dictionary α).elements.flatten = [] := rfl
  refine ⟨⟨fun key => ?_, ?_, ?_⟩, ?_, fun key => ?_, ?_⟩
  · exact Nat.mod_lt _ (by simp [dictionaryCreate, dictionaryInitialSize])
  · intro i chain hchain element helement
    have hmem := List.mem_flatten.2 ⟨chain, List.mem_of_getElem? hchain, helement⟩
    rw [hempty] at hmem
    exact absurd hmem List.not_mem_nil
  · rw [hempty]
    exact List.nodup_nil
  · rw [hempty]
    exact fun element helement => absurd helement List.not_mem_nil
  · rw [hempty]
    rfl
  · rw [hempty]
    rfl

/-- In a chain without a key twice, the assignment is to the element of the key. -/
lemma setData_eq {chain : List (HashElement α)} (key : List UInt8) (data : Option α)
    (hnodup : (chain.map HashElement.key).Nodup)
    (hhashed : ∀ element ∈ chain, element.hashcode = dictionaryHash element.key) :
    HashElement.setData (dictionaryHash key) key data chain =
      modifyKey HashElement.key key (fun element => { element with data := data }) chain := by
  induction chain with
  | nil => rfl
  | cons element rest ih =>
    rw [List.map_cons, List.nodup_cons] at hnodup
    have hrest := ih hnodup.2 fun e he => hhashed e (List.mem_cons_of_mem element he)
    have hhash := hhashed element List.mem_cons_self
    rw [HashElement.setData, hrest]
    by_cases hkey : element.key = key
    · have hisOf : element.isOf (dictionaryHash key) key = true := by
        simp [HashElement.isOf, hkey, hhash]
      have hsame : modifyKey HashElement.key key (fun e => { e with data := data }) rest =
          rest := by
        apply modifyKey_of_not_mem
        rintro e he rfl
        exact hnodup.1 (hkey ▸ List.mem_map_of_mem he)
      rw [if_pos hisOf, modifyKey, List.map_cons, if_pos hkey, ← modifyKey, hsame]
    · have hisOf : element.isOf (dictionaryHash key) key = false := by
        simp [HashElement.isOf, hkey]
      rw [if_neg (by simp [hisOf]), modifyKey, modifyKey, List.map_cons, if_neg hkey]

/-- **A put adds to the history**: a new key gets an element in front of the chain of its bucket,
and the element of an old key gets the data. -/
theorem represents_put (h : d.Represents history) (key : List UInt8) (data : Option α) :
    (d.put key data).Represents ((key, data) :: history) := by
  have hfind := h.find_eq key
  have hlookup : ∀ key', List.lookup key' ((key, data) :: history) =
      if key = key' then some data else history.lookup key' := by
    intro key'
    rw [List.lookup_cons]
    by_cases hkey : key' = key
    · simp [hkey]
    · have hbeq : (key' == key) = false := by simpa using hkey
      rw [hbeq, if_neg (Ne.symm hkey)]
  cases hcase : d.find key with
  | none =>
    rw [hcase] at hfind
    rw [put, hcase]
    have hnew : key ∉ d.elements.flatten.map HashElement.key := lookupKey_eq_none.1 hfind.symm
    set element : HashElement α := ⟨key, dictionaryHash key, data⟩ with helement
    have hperm : ((d.elements.modify (bucket d.elements.length key) (element :: ·)).flatten).Perm
        (element :: d.elements.flatten) := h.chained.perm_flatten_cons element
    have hchained : Chained HashElement.key (bucket d.elements.length)
        (d.elements.modify (bucket d.elements.length key) (element :: ·)) :=
      h.chained.cons (x := element) hnew
    refine ⟨?_, fun e he => ?_, fun key' => ?_, ?_⟩
    · simp only [List.length_modify]
      exact hchained
    · rcases List.mem_cons.1 (hperm.mem_iff.1 he) with rfl | hold
      · rfl
      · exact h.hashed e hold
    · rw [hlookup]
      have hcons := h.chained.lookupKey_cons (x := element) hnew key'
      refine (congrArg (Option.map HashElement.data) hcons).trans ?_
      by_cases hkey : key = key'
      · rw [if_pos hkey, if_pos hkey]
        rfl
      · rw [if_neg hkey, if_neg hkey, h.data]
    · have hlength := hperm.length_eq
      rw [List.length_cons] at hlength
      show d.elementsAmount + 1 = _
      rw [h.amount]
      exact_mod_cast hlength.symm
  | some found =>
    rw [hcase] at hfind
    rw [put, hcase]
    have hmodify : d.elements.modify (bucket d.elements.length key)
        (HashElement.setData (dictionaryHash key) key data) =
          d.elements.modify (bucket d.elements.length key)
            (modifyKey HashElement.key key fun element => { element with data := data }) := by
      refine Chained.modify_congr fun chain hchain => setData_eq key data ?_ fun e he => ?_
      · exact h.chained.nodup.sublist
          ((List.sublist_flatten_of_mem (List.mem_of_getElem? hchain)).map _)
      · exact h.hashed e (List.mem_flatten.2 ⟨chain, List.mem_of_getElem? hchain, he⟩)
    have hkeep : ∀ element : HashElement α, element.key = key →
        ({ element with data := data } : HashElement α).key = key := fun _ hkey => hkey
    have hchained := h.chained.modifyKey key hkeep
    have hflatten := h.chained.flatten_modifyKey key
      fun element => { element with data := data }
    simp only [hmodify]
    refine ⟨?_, fun e he => ?_, fun key' => ?_, ?_⟩
    · simp only [List.length_modify]
      exact hchained
    · rw [hflatten] at he
      rcases mem_modifyKey he with ⟨-, hold⟩ | ⟨old, hold, -, rfl⟩
      · exact h.hashed e hold
      · exact h.hashed old hold
    · rw [hlookup, hflatten]
      by_cases hkey : key = key'
      · subst hkey
        rw [if_pos rfl, lookupKey_modifyKey_self hkeep, ← hfind]
        rfl
      · rw [if_neg hkey, lookupKey_modifyKey_of_ne hkeep (Ne.symm hkey), h.data]
    · rw [hflatten, modifyKey, List.length_map]
      exact h.amount

/-- What the functions that look up return. -/
lemma Represents.get_eq (h : d.Represents history) (key : List UInt8) :
    d.get key = (history.lookup key).join := by
  rw [← h.data key, get, h.find_eq key]
  cases lookupKey HashElement.key key d.elements.flatten <;> rfl

/-- A key is there if it was put. -/
lemma Represents.hasKey_iff (h : d.Represents history) (key : List UInt8) :
    d.hasKey key = true ↔ ∃ data, (key, data) ∈ history := by
  rw [hasKey, h.find_eq key, ← Option.isSome_map (f := HashElement.data), h.data key,
    List.lookup_isSome_iff]
  simp

/-- The number of elements is that of different keys. -/
lemma Represents.elementsAmount_eq (h : d.Represents history) :
    d.elementsAmount = (history.map Prod.fst).dedup.length := by
  have hperm : (d.elements.flatten.map HashElement.key).Perm (history.map Prod.fst).dedup := by
    rw [List.perm_ext_iff_of_nodup h.chained.nodup (List.nodup_dedup _)]
    intro key
    have hkey := h.hasKey_iff key
    rw [hasKey, h.find_eq key, Option.isSome_iff_ne_none, Ne, lookupKey_eq_none, not_not] at hkey
    rw [hkey, List.mem_dedup, List.mem_map]
    constructor
    · rintro ⟨data, hmem⟩
      exact ⟨_, hmem, rfl⟩
    · rintro ⟨⟨_, data⟩, hmem, rfl⟩
      exact ⟨data, hmem⟩
  rw [h.amount, ← hperm.length_eq, List.length_map]

/-- A call adds what it puts. -/
lemma represents_runAll (calls : List (DictionaryCall α)) :
    (DictionaryCall.runAll calls).Represents (DictionaryCall.puts calls) := by
  induction calls using List.reverseRecOn with
  | nil => exact represents_create
  | append_singleton calls call ih =>
    rw [DictionaryCall.runAll, List.foldl_append, ← DictionaryCall.runAll, DictionaryCall.puts,
      List.reverse_append]
    cases call with
    | put key data => exact represents_put ih key data
    | get key => exact ih
    | hasKey key => exact ih

/-- **The dictionary is a finite map** after any calls: a key has the data of the last put of an
equal key, and no data if there was none; the keys are those that were put; the number of elements
is that of different keys; and a put leaves the other keys alone. -/
theorem isMap_runAll (calls : List (DictionaryCall α)) :
    (∀ key, (DictionaryCall.runAll calls).get key =
      ((DictionaryCall.puts calls).lookup key).join) ∧
    (∀ key, (DictionaryCall.runAll calls).hasKey key = true ↔
      ∃ data, (key, data) ∈ DictionaryCall.puts calls) ∧
    (DictionaryCall.runAll calls).elementsAmount =
      ((DictionaryCall.puts calls).map Prod.fst).dedup.length ∧
    ∀ key data key', key' ≠ key →
      ((DictionaryCall.runAll calls).put key data).get key' =
        (DictionaryCall.runAll calls).get key' ∧
      ((DictionaryCall.runAll calls).put key data).hasKey key' =
        (DictionaryCall.runAll calls).hasKey key' := by
  have h := represents_runAll calls
  refine ⟨h.get_eq, h.hasKey_iff, h.elementsAmount_eq, fun key data key' hne => ?_⟩
  have hput := represents_put h key data
  have hbeq : (key' == key) = false := by simpa using hne
  constructor
  · rw [hput.get_eq, h.get_eq, List.lookup_cons, hbeq]
  · rw [Bool.eq_iff_iff, hput.hasKey_iff, h.hasKey_iff]
    simp [hne]

end Dictionary

end Map

end OsSimulator
