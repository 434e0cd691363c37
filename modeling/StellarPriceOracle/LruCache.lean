import StellarPriceOracle.Library.InsertionMap
import StellarPriceOracle.Library.JsNumber

-- api/src/price-serving/cache.ts: the in-process cache.
namespace StellarPriceOracle.LruCache
open JsNumber (le lt add)
open InsertionMap (get_remove get_of_remove get_set get_set_ne)
open Option (some)

structure Entry (V : Type) where
  value : V
  expiresAt : JsNumber

structure LRUCache (V : Type) where
  cache : InsertionMap String (Entry V)
  (maxSize ttlMs : JsNumber)

namespace LRUCache
variable {V : Type}

def new (maxSize ttlMs : JsNumber) : LRUCache V := ⟨.empty,maxSize,ttlMs⟩

section
variable (c : LRUCache V)

def get (now : Int) (key : String) : LRUCache V × Option V :=
  match c.cache.get key with
  | none => (c,none)
  | some entry =>
    if lt entry.expiresAt (.finite now) then ({c with cache := c.cache.remove key},none)
    else ({c with cache := (c.cache.remove key).set key entry},some entry.value)

-- The key that came or was used first makes way, also for one that is held already.
def evict : InsertionMap String (Entry V) :=
  if le c.maxSize (.finite c.cache.entries.length) then
    match c.cache.first with
    | some oldest => c.cache.remove oldest
    | none => c.cache
  else c.cache

def set (now : Int) (key : String) (value : V) : LRUCache V :=
  {c with cache := c.evict.set key ⟨value,add (.finite now) c.ttlMs⟩}

def clear : LRUCache V := {c with cache := .empty}

def Holds (key : String) (value : V) : Prop := ∃ entry, c.cache.get key = some entry ∧ entry.value = value

end

end LRUCache

section
variable {V : Type} {c : LRUCache V}

theorem get_held (got : (c.get now key).2 = some value) : c.Holds key value := by
  unfold LRUCache.get at got
  cases mem : c.cache.get key with
  | none => simp [mem] at got
  | some entry =>
    simp only [mem] at got
    split at got
    · cases got
    · exact ⟨entry,mem,some.inj got⟩

theorem get_keeps (after : (c.get now key).1.Holds other held) : c.Holds other held := by
  unfold LRUCache.get at after
  cases mem : c.cache.get key with
  | none => simpa [mem] using after
  | some entry =>
    simp only [mem] at after
    split at after
    · obtain ⟨got,there,same⟩ := after
      exact ⟨got,get_of_remove there,same⟩
    · obtain ⟨got,there,same⟩ := after
      rcases eq_or_ne other key with rfl | here
      · rw [get_set] at there
        exact ⟨entry,mem,some.inj there ▸ same⟩
      · rw [get_set_ne here,get_remove,if_neg here] at there
        exact ⟨got,there,same⟩

theorem evict_keeps (after : c.evict.get other = some entry) : c.cache.get other = some entry := by
  unfold LRUCache.evict at after
  split at after
  · cases first : c.cache.first with
    | none => simpa [first] using after
    | some =>
      simp only [first] at after
      exact get_of_remove after
  · exact after

theorem set_keeps (after : (c.set now key value).Holds other held) : (other = key ∧ held = value) ∨ c.Holds other held := by
  obtain ⟨entry,there,same⟩ := after
  rcases eq_or_ne other key with rfl | here
  · simp only [LRUCache.set,get_set] at there
    rw [← some.inj there] at same
    exact .inl ⟨rfl,same.symm⟩
  · simp only [LRUCache.set,get_set_ne here] at there
    exact .inr ⟨entry,evict_keeps there,same⟩

theorem clear_empty : ¬ c.clear.Holds key value := by
  rintro ⟨_,there,_⟩
  cases there

end

end StellarPriceOracle.LruCache
