import StellarPriceOracle.PriceRegister

namespace StellarPriceOracle.PriceConvergence
open PriceRegister
open InsertionMap (get_set get_set_some get_set_ne mem_values first_set first_value)
open List (mem_cons_self mem_cons_of_mem foldl_cons mem_cons)

abbrev Delivery := Int × RegionPriceRecord

def deliver (r : LwwPriceRegister) (deliveries : List Delivery) : LwwPriceRegister :=
  deliveries.foldl (fun r d => (merge d.1 r d.2).2) r

section
variable (records : List RegionPriceRecord)

def Orders (deliveries : List Delivery) : Prop :=
  (deliveries.map Prod.snd).Perm records

structure Agree (one two : LwwPriceRegister) : Prop where
  stored : ∀ region asset, one.values.get (keyFor region asset) = two.values.get (keyFor region asset)
  byAsset : ∀ asset record, record ∈ byAsset one asset ↔ record ∈ byAsset two asset
  latest : ∀ asset, latest one asset = latest two asset

def Converges : Prop :=
  ∀ one two, Orders records one → Orders records two → Agree (deliver .new one) (deliver .new two)

-- It carries its region's highest epoch and is strictly the latest of its cell.
def Winner (w : RegionPriceRecord) : Prop :=
  w ∈ records ∧ 0 ≤ w.epoch ∧ (∀ r ∈ records, r.region = w.region → r.epoch ≤ w.epoch) ∧
    ∀ r ∈ records, 0 ≤ r.epoch → keyOf r = keyOf w → r ≠ w → r.timestamp < w.timestamp

end

instance : Decidable (Winner records w) := inferInstanceAs (Decidable (_ ∧ _ ∧ _ ∧ _))

section
variable (records : List RegionPriceRecord)

def Dominated : Prop :=
  ∀ r ∈ records, 0 ≤ r.epoch → ∃ w ∈ records, Winner records w ∧ keyOf w = keyOf r

-- Two winners of one asset are not both its latest.
def Untied : Prop :=
  ∀ v ∈ records, ∀ w ∈ records, Winner records v → Winner records w → v ≠ w → v.asset = w.asset →
    v.timestamp = w.timestamp → ∃ u ∈ records, Winner records u ∧ u.asset = v.asset ∧ v.timestamp < u.timestamp

theorem deliver_keeps {P : LwwPriceRegister → Prop} (base : P r)
    (keep : ∀ d ∈ deliveries, ∀ r, P r → P (merge d.1 r d.2).2) : P (deliver r deliveries) := by
  induction deliveries generalizing r with
  | nil => exact base
  | cons d _ ih =>
    apply ih (keep d mem_cons_self r base)
    exact fun other mem => keep other (mem_cons_of_mem _ mem)

-- Whatever is stored was delivered, with an epoch that counts.
def Sourced (r : LwwPriceRegister) : Prop :=
  (∀ region, 0 ≤ epochFor r region) ∧
    ∀ k v, r.values.get k = some v → v ∈ records ∧ keyOf v = k ∧ 0 ≤ v.epoch

end

theorem merge_raises : epochFor r region ≤ epochFor (merge now r record).2 region := by
  rw [merge_epochFor]
  split
  · exact Int.le_max_left _ _
  · exact Int.le_refl _

theorem merge_sourced (now : Int) (mem : record ∈ records) (sourced : Sourced records r) :
    Sourced records (merge now r record).2 := by
  refine ⟨fun region => Int.le_trans (sourced.1 region) merge_raises,?_⟩
  intro k v held
  rcases merge_cases with ⟨fresh,_,same⟩ | ⟨_,same⟩
  · rw [same] at held
    rcases get_set_some.mp held with ⟨rfl,rfl⟩ | ⟨_,held⟩
    · exact ⟨mem,rfl,Int.le_trans (sourced.1 record.region) fresh⟩
    · exact sourced.2 k v held
  · rw [same] at held
    exact sourced.2 k v held

theorem Orders.mem (order : Orders records deliveries) (mem : d ∈ deliveries) : d.2 ∈ records :=
  order.subset (List.mem_map_of_mem mem)

theorem sourced_new : Sourced records .new := ⟨fun _ => Int.le_refl _,fun _ _ held => by cases held⟩

theorem deliver_sourced (order : Orders records deliveries) : Sourced records (deliver .new deliveries) :=
  deliver_keeps sourced_new (fun _ mem _ sourced => merge_sourced _ (order.mem mem) sourced)

def Admits (w : RegionPriceRecord) (r : LwwPriceRegister) : Prop := epochFor r w.region ≤ w.epoch

section
variable (winner : Winner records w)
include winner

theorem merge_admits (mem : record ∈ records) (admits : Admits w r) : Admits w (merge now r record).2 := by
  unfold Admits
  rw [merge_epochFor]
  split
  · rename_i same
    exact Int.max_le.mpr ⟨admits,winner.2.2.1 record mem same⟩
  · exact admits

theorem merge_winner (now : Int) (sourced : Sourced records r) (admits : Admits w r) :
    (merge now r w).2.values.get (keyOf w) = some w := by
  by_cases newer : Newer r w
  · rw [merge_newer admits newer,get_set]
  · -- the cell holds something as late, which can only be the winner
    rw [merge_older newer]
    simp only [Newer,not_forall] at newer
    obtain ⟨current,held,late⟩ := newer
    obtain ⟨mem,key,valid⟩ := sourced.2 _ _ held
    by_cases same : current = w
    · rw [← same]
      rw [← same] at held
      exact held
    · exact absurd (winner.2.2.2 current mem valid key same) late

theorem merge_keeps_winner (sourced : Sourced records r) (mem : record ∈ records)
    (held : r.values.get (keyOf w) = some w) : (merge now r record).2.values.get (keyOf w) = some w := by
  rcases merge_cases with ⟨fresh,newer,same⟩ | ⟨_,same⟩
  · rw [same]
    by_cases here : keyOf w = keyOf record
    · have late : w.timestamp < record.timestamp := newer w (here ▸ held)
      have valid := Int.le_trans (sourced.1 record.region) fresh
      by_cases equal : record = w
      · rw [equal,get_set]
      · have early := winner.2.2.2 record mem valid here.symm equal
        omega
    · rw [get_set_ne here]
      exact held
  · rw [same]
    exact held

-- Taken when it arrives, since nothing before it fences it, and kept afterwards.
theorem winner_stored (order : Orders records deliveries) : (deliver .new deliveries).values.get (keyOf w) = some w := by
  obtain ⟨d,arrives,rfl⟩ := List.mem_map.mp (order.mem_iff.mpr winner.1)
  obtain ⟨before,after,rfl⟩ := List.append_of_mem arrives
  have ready : Sourced records (deliver .new before) ∧ Admits d.2 (deliver .new before) := by
    apply deliver_keeps (P := fun r => Sourced records r ∧ Admits d.2 r) ⟨sourced_new,winner.2.1⟩
    intro other mem r valid
    have known := order.mem (List.mem_append_left _ mem)
    exact ⟨merge_sourced _ known valid.1,merge_admits winner known valid.2⟩
  have taken := merge_winner winner d.1 ready.1 ready.2
  have sourced := merge_sourced d.1 winner.1 ready.1
  simp only [deliver,List.foldl_append,foldl_cons]
  have kept : Sourced records (deliver (merge d.1 (deliver .new before) d.2).2 after) ∧
      (deliver (merge d.1 (deliver .new before) d.2).2 after).values.get (keyOf d.2) = some d.2 := by
    apply deliver_keeps (P := fun r => Sourced records r ∧ r.values.get (keyOf d.2) = some d.2) ⟨sourced,taken⟩
    intro _ mem r valid
    have known := order.mem (List.mem_append_right _ (mem_cons_of_mem _ mem))
    exact ⟨merge_sourced _ known valid.1,merge_keeps_winner winner valid.1 known valid.2⟩
  exact kept.2

end

theorem stored_exact (dominated : Dominated records) (order : Orders records deliveries) :
    (deliver .new deliveries).values.get k = some v ↔ Winner records v ∧ keyOf v = k := by
  constructor
  · intro held
    obtain ⟨mem,key,valid⟩ := (deliver_sourced order).2 k v held
    obtain ⟨w,_,winner,same⟩ := dominated v mem valid
    have stored := winner_stored winner order
    rw [same,key,held] at stored
    cases stored
    exact ⟨winner,key⟩
  · rintro ⟨winner,rfl⟩
    exact winner_stored winner order

theorem byAsset_exact (dominated : Dominated records) (order : Orders records deliveries) :
    record ∈ byAsset (deliver .new deliveries) asset ↔ Winner records record ∧ record.asset = asset := by
  simp only [byAsset,List.mem_filter,mem_values,stored_exact dominated order,decide_eq_true_eq]
  constructor
  · rintro ⟨⟨_,winner,_⟩,same⟩
    exact ⟨winner,same⟩
  · rintro ⟨winner,same⟩
    exact ⟨⟨_,winner,rfl⟩,same⟩

-- The induction carries the best so far as the first element.
theorem foldl_later (first : RegionPriceRecord) (rest : List RegionPriceRecord) : rest.foldl later first ∈ first :: rest ∧
    ∀ v ∈ first :: rest, v.timestamp ≤ (rest.foldl later first).timestamp := by
  induction rest generalizing first with
  | nil => simp
  | cons record _ ih =>
    obtain ⟨got,bound⟩ := ih (later first record)
    have choice : later first record = first ∨ later first record = record := by
      unfold later
      split
      · exact .inr rfl
      · exact .inl rfl
    have covers : first.timestamp ≤ (later first record).timestamp ∧ record.timestamp ≤ (later first record).timestamp := by
      unfold later
      split
      · rename_i newer
        exact ⟨Int.le_of_lt newer,Int.le_refl _⟩
      · rename_i older
        exact ⟨Int.le_refl _,Int.not_lt.mp older⟩
    have top := bound _ mem_cons_self
    rw [foldl_cons]
    refine ⟨?_,?_⟩
    · rcases mem_cons.mp got with same | old
      · rcases choice with one | two
        · rw [same,one]
          exact mem_cons_self
        · rw [same,two]
          exact mem_cons_of_mem _ mem_cons_self
      · exact mem_cons_of_mem _ (mem_cons_of_mem _ old)
    · intro v mem
      rcases mem_cons.mp mem with rfl | mem
      · exact Int.le_trans covers.1 top
      · rcases mem_cons.mp mem with rfl | mem
        · exact Int.le_trans covers.2 top
        · exact bound v (mem_cons_of_mem _ mem)

theorem foldl_later_first {rest : List RegionPriceRecord}
    (leads : ∀ v ∈ rest, v.timestamp ≤ first.timestamp) : rest.foldl later first = first := by
  induction rest with
  | nil => rfl
  | cons record _ ih =>
    have behind : ¬ record.timestamp > first.timestamp := Int.not_lt.mpr (leads record mem_cons_self)
    rw [foldl_cons,later,if_neg behind]
    exact ih (fun v mem => leads v (mem_cons_of_mem _ mem))

theorem latest_some (got : latest r asset = some w) : w ∈ byAsset r asset ∧ ∀ v ∈ byAsset r asset, v.timestamp ≤ w.timestamp := by
  unfold latest at got
  split at got
  · cases got
  · rename_i first rest mem
    cases got
    rw [mem]
    exact foldl_later first rest

theorem latest_none : latest r asset = none ↔ byAsset r asset = [] := by
  unfold latest
  split
  · rename_i empty
    simp [empty]
  · rename_i mem
    simp [mem]

theorem latest_of_first (listed : byAsset r asset = w :: rest) (leads : ∀ v ∈ byAsset r asset, v.timestamp ≤ w.timestamp) :
    latest r asset = some w := by
  simp only [latest,listed]
  rw [listed] at leads
  rw [foldl_later_first (fun v mem => leads v (mem_cons_of_mem _ mem))]

theorem latest_exact (dominated : Dominated records) (untied : Untied records) (order : Orders records deliveries) :
    latest (deliver .new deliveries) asset = some w ↔
      (Winner records w ∧ w.asset = asset) ∧ ∀ v, Winner records v → v.asset = asset → v.timestamp ≤ w.timestamp := by
  constructor
  · intro got
    obtain ⟨mem,bound⟩ := latest_some got
    rw [byAsset_exact dominated order] at mem
    refine ⟨mem,?_⟩
    intro v winner same
    exact bound v ((byAsset_exact dominated order).mpr ⟨winner,same⟩)
  · rintro ⟨⟨winner,same⟩,top⟩
    have listed := (byAsset_exact dominated order).mpr ⟨winner,same⟩
    cases got : latest (deliver .new deliveries) asset with
    | none =>
      rw [latest_none.mp got] at listed
      cases listed
    | some u =>
      obtain ⟨mem,bound⟩ := latest_some got
      obtain ⟨also,shared⟩ := (byAsset_exact dominated order).mp mem
      by_cases equal : w = u
      · rw [equal]
      · have level : w.timestamp = u.timestamp := Int.le_antisymm (bound w listed) (top u also shared)
        obtain ⟨x,_,beats,asset,_⟩ := untied w winner.1 u also.1 winner also equal (same.trans shared.symm) level
        have below := top x beats (asset.trans same)
        omega

theorem converges_of (dominated : Dominated records) (untied : Untied records) : Converges records := by
  intro _ _ orderOne orderTwo
  refine ⟨?_,?_,?_⟩
  · intro _ asset
    apply Option.ext
    intro v
    rw [stored_exact dominated orderOne,stored_exact dominated orderTwo]
  · intro asset _
    rw [byAsset_exact dominated orderOne,byAsset_exact dominated orderTwo]
  · intro _
    apply Option.ext
    intro v
    rw [latest_exact dominated untied orderOne,latest_exact dominated untied orderTwo]

-- One record first: it is stored, and fences its region for all that follow.
def leading (r : RegionPriceRecord) (records : List RegionPriceRecord) : List Delivery :=
  (0,r) :: (records.erase r).map (fun record => (0,record))

theorem leading_orders (mem : r ∈ records) : Orders records (leading r records) := by
  have same : (leading r records).map Prod.snd = r :: records.erase r := by
    simp [leading,Function.comp_def]
  rw [Orders,same]
  exact (List.perm_cons_erase mem).symm

theorem leading_keeps {P : LwwPriceRegister → Prop} (base : P (merge 0 .new r).2)
    (keep : ∀ now record q, P q → P (merge now q record).2) : P (deliver .new (leading r records)) := by
  rw [leading,deliver,foldl_cons]
  exact deliver_keeps base (fun d _ q => keep d.1 d.2 q)

section
variable {r : RegionPriceRecord} (valid : 0 ≤ r.epoch)
include valid

theorem merge_first : (merge now .new r).2.values.get (keyOf r) = some r := by
  rw [merge_newer (r := .new) valid (by rintro _ ⟨⟩),get_set]

theorem leading_stored :
    ∃ v, (deliver .new (leading r records)).values.get (keyOf r) = some v ∧ (v = r ∨ r.timestamp < v.timestamp) := by
  apply leading_keeps (P := fun q => ∃ v, q.values.get (keyOf r) = some v ∧ (v = r ∨ r.timestamp < v.timestamp))
  · exact ⟨r,merge_first valid,.inl rfl⟩
  · rintro _ record q ⟨v,held,late⟩
    rcases merge_cases with ⟨_,newer,same⟩ | ⟨_,same⟩
    · rw [same]
      by_cases here : keyOf r = keyOf record
      · have above := newer v (here ▸ held)
        refine ⟨record,by rw [here,get_set],.inr ?_⟩
        rcases late with rfl | late
        · exact above
        · omega
      · exact ⟨v,by rw [get_set_ne here]; exact held,late⟩
    · exact ⟨v,by rw [same]; exact held,late⟩

theorem leading_fences (held : (deliver .new (leading r records)).values.get k = some v)
    (same : v.region = r.region) : r.epoch ≤ v.epoch := by
  have fenced : r.epoch ≤ epochFor (deliver .new (leading r records)) r.region ∧
      ∀ k v, (deliver .new (leading r records)).values.get k = some v → v.region = r.region → r.epoch ≤ v.epoch := by
    apply leading_keeps (P := fun q => r.epoch ≤ epochFor q r.region ∧
      ∀ k v, q.values.get k = some v → v.region = r.region → r.epoch ≤ v.epoch)
    · refine ⟨?_,?_⟩
      · rw [merge_epochFor,if_pos rfl]
        exact Int.le_max_right _ _
      · intro k v held _
        rw [merge_newer (r := .new) valid (by rintro _ ⟨⟩)] at held
        rcases get_set_some.mp held with ⟨rfl,rfl⟩ | ⟨_,held⟩
        · exact Int.le_refl _
        · cases held
    · rintro _ _ q ⟨bound,above⟩
      refine ⟨Int.le_trans bound merge_raises,?_⟩
      intro k v held region
      rcases merge_cases with ⟨fresh,_,stored⟩ | ⟨_,stored⟩
      · rw [stored] at held
        rcases get_set_some.mp held with ⟨rfl,rfl⟩ | ⟨_,held⟩
        · rw [region] at fresh
          exact Int.le_trans bound fresh
        · exact above k v held region
      · rw [stored] at held
        exact above k v held region
  exact fenced.2 k v held same

theorem leading_first : (deliver .new (leading r records)).values.first = some (keyOf r) := by
  apply leading_keeps (P := fun q => q.values.first = some (keyOf r))
  · rw [merge_newer (r := .new) valid (by rintro _ ⟨⟩)]
    rfl
  · intro _ _ q leads
    rcases merge_cases with ⟨_,_,stored⟩ | ⟨_,stored⟩
    · rw [stored]
      exact first_set leads
    · rw [stored]
      exact leads

end

-- Each record may come first, and the registers agree whichever did.
theorem dominated_of (converges : Converges records) : Dominated records := by
  intro r mem valid
  have order := leading_orders mem
  obtain ⟨w,held,_⟩ := leading_stored valid
  obtain ⟨known,key,epoch⟩ := (deliver_sourced order).2 _ w held
  have everywhere : ∀ m ∈ records, (deliver .new (leading m records)).values.get (keyOf r) = some w := by
    intro m also
    rw [← held]
    exact (converges _ _ (leading_orders also) order).stored r.region r.asset
  refine ⟨w,known,⟨known,epoch,?_,?_⟩,key⟩
  · intro m also same
    by_cases counts : 0 ≤ m.epoch
    · exact leading_fences counts (everywhere m also) same.symm
    · omega
  · intro m also counts cell ne
    obtain ⟨v,stored,late⟩ := leading_stored counts
    rw [cell,key,everywhere m also] at stored
    cases stored
    exact late.resolve_left (Ne.symm ne)

theorem leading_latest (dominated : Dominated records) (winner : Winner records w)
    (top : ∀ u ∈ records, Winner records u → u.asset = w.asset → u.timestamp ≤ w.timestamp) :
    latest (deliver .new (leading w records)) w.asset = some w := by
  have order := leading_orders winner.1
  obtain ⟨rest,listed⟩ := first_value (leading_first winner.2.1) (winner_stored winner order)
  have first : byAsset (deliver .new (leading w records)) w.asset = w :: rest.filter (fun record => record.asset = w.asset) := by
    simp [byAsset,listed]
  apply latest_of_first first
  intro v mem
  obtain ⟨also,same⟩ := (byAsset_exact dominated order).mp mem
  exact top v also.1 also same

theorem untied_of (converges : Converges records) : Untied records := by
  have dominated := dominated_of converges
  intro v known w also first second ne asset level
  by_contra alone
  have top : ∀ u ∈ records, Winner records u → u.asset = v.asset → u.timestamp ≤ v.timestamp := by
    intro u mem winner same
    by_contra above
    exact alone ⟨u,mem,winner,same,Int.not_le.mp above⟩
  have one := leading_latest dominated first top
  have two := leading_latest dominated second (by rw [← asset,← level]; exact top)
  have agree := (converges _ _ (leading_orders known) (leading_orders also)).latest v.asset
  rw [asset,two] at agree
  rw [asset] at one
  rw [one] at agree
  exact ne (Option.some.inj agree)

theorem convergence_exact (records : List RegionPriceRecord) :
    Converges records ↔ Dominated records ∧ Untied records :=
  ⟨fun converges => ⟨dominated_of converges,untied_of converges⟩,fun ⟨dominated,untied⟩ => converges_of dominated untied⟩

namespace Sample
def record (epoch timestamp price : Int) : RegionPriceRecord :=
  ⟨"us-east-1","XLM",price,7,timestamp,timestamp,.remote,epoch,none,none⟩

def before : RegionPriceRecord := record 1 10 100
def after : RegionPriceRecord := record 2 5 200

def tag (r : RegionPriceRecord) : String × String × Int × Int := (r.region,r.asset,r.epoch,r.timestamp)
end Sample

open Sample

theorem election_diverges : ∃ one two,
    ([before,after].map tag).Nodup ∧ Orders [before,after] one ∧
    Orders [before,after] two ∧
    (deliver .new one).values.get (keyFor "us-east-1" "XLM") = some before ∧
    (deliver .new two).values.get (keyFor "us-east-1" "XLM") = some after ∧
    latest (deliver .new one) "XLM" ≠ latest (deliver .new two) "XLM" := by
  refine ⟨[(0,before),(0,after)],[(0,after),(0,before)],by decide,.refl _,.swap _ _ _,?_⟩
  exact ⟨by decide,by decide,by decide⟩

end StellarPriceOracle.PriceConvergence
