import CncRemote.EdingDll
import Mathlib.Data.List.Perm.Basic

/-!
# The version that the Eding driver selects

`LoadDll` looks for the newest installation in one walk over the keys that list the programs.
`Installed.offer` is what a key has to offer; `selects_iff` says in which orders of the keys the
walk ends with the highest version on offer, and `version_perm_iff` for which keys every order ends
with the same one.
-/

namespace CncRemote

/-- The `ver` of a key name: the digit after `CNC4.0`, or what else there is after it. -/
def keyVersion (keyName : Wide) : Int := (keyName[6]?.getD 0).toNat - '0'.toNat

/-- The version and the path of a key whose name starts with `CNC4.0`, which opens, names the
publisher and has a location; other keys have nothing to offer. -/
def Installed.offer (installed : Installed) : Option (Int × Wide) := do
  let keyName ← installed.keyName
  guard (keyName.take 6 = wide "CNC4.0")
  guard (installed.opens = true)
  guard (installed.publisher = some (wide "EDING CNC B.V."))
  let keyData ← installed.installLocation
  return (keyVersion keyName, keyData)

/-- The walk over what the keys have to offer. -/
def choose : List (Int × Wide) → Int → Wide → Int × Wide
  | [], dllVersion, path => (dllVersion, path)
  | (ver, keyData) :: rest, dllVersion, path =>
      if ver < dllVersion then choose rest dllVersion path
      else if ver = 2 then (ver, keyData)
      else choose rest ver keyData

theorem examine_of_offer {installed : Installed} {ver : Int} {keyData : Wide}
    (offered : installed.offer = some (ver, keyData)) (dllVersion : Int) (path : Wide) :
    installed.examine dllVersion path = if ver < dllVersion then none else some (ver, keyData) := by
  obtain ⟨_ | keyName, opens, publisher, installLocation⟩ := installed
  · cases offered
  simp only [Installed.offer, Installed.examine, Option.bind_eq_bind, Option.bind_some]
    at offered ⊢
  by_cases named : keyName.take 6 = wide "CNC4.0"
  · by_cases signed : publisher = some (wide "EDING CNC B.V.")
    · cases opens with
      | false => simp [guard, failure] at offered
      | true =>
          cases installLocation with
          | none => simp at offered
          | some location =>
              obtain ⟨rfl, rfl⟩ : keyVersion keyName = ver ∧ location = keyData := by
                simpa [named, signed, guard] using offered
              rw [← keyVersion]
              by_cases older : keyVersion keyName < dllVersion
              · simp [named, older, guard, failure]
              · simp [named, signed, older, guard]
    · simp [signed, guard, failure] at offered
  · simp [named, guard, failure] at offered

theorem examine_of_none {installed : Installed} (nothing : installed.offer = none)
    (dllVersion : Int) (path : Wide) :
    installed.examine dllVersion path = none ∨
      installed.examine dllVersion path = some (dllVersion, path) := by
  obtain ⟨_ | keyName, opens, publisher, installLocation⟩ := installed
  · exact .inl rfl
  simp only [Installed.offer, Installed.examine, Option.bind_eq_bind, Option.bind_some]
    at nothing ⊢
  by_cases named : keyName.take 6 = wide "CNC4.0"
  · cases opens with
    | false => simp [named, guard, failure]
    | true =>
        by_cases signed : publisher = some (wide "EDING CNC B.V.")
        · cases installLocation with
          | none =>
              simp only [guard]
              split_ifs <;> simp [failure]
          | some location => simp [named, signed, guard] at nothing
        · simp [named, signed, guard, failure]
  · simp [named, guard, failure]

theorem searchInstalled_eq {dllVersion : Int} (running : dllVersion ≠ 2)
    (installed : List Installed) (path : Wide) :
    searchInstalled installed dllVersion path =
      choose (installed.filterMap Installed.offer) dllVersion path := by
  induction installed generalizing dllVersion path with
  | nil => rfl
  | cons key rest ih =>
      rw [searchInstalled, List.filterMap_cons]
      cases offered : key.offer with
      | none =>
          dsimp only
          obtain skipped | kept := examine_of_none offered dllVersion path
          · rw [skipped]
            exact ih running path
          · rw [kept]
            exact (if_neg running).trans (ih running path)
      | some found =>
          obtain ⟨ver, keyData⟩ := found
          dsimp only
          rw [examine_of_offer offered, choose]
          by_cases older : ver < dllVersion
          · rw [if_pos older, if_pos older]
            exact ih running path
          · rw [if_neg older, if_neg older]
            by_cases second : ver = 2
            · rw [if_pos second]
              exact if_pos second
            · rw [if_neg second, ← ih second keyData]
              exact if_neg second

theorem le_choose (offers : List (Int × Wide)) (dllVersion : Int) (path : Wide) :
    dllVersion ≤ (choose offers dllVersion path).1 := by
  induction offers generalizing dllVersion path with
  | nil => exact le_rfl
  | cons offer rest ih =>
      rw [choose]
      split_ifs with older
      · exact ih dllVersion path
      · exact not_lt.mp older
      · exact (not_lt.mp older).trans (ih _ _)

theorem choose_mem (offers : List (Int × Wide)) (dllVersion : Int) (path : Wide) :
    choose offers dllVersion path ∈ (dllVersion, path) :: offers := by
  induction offers generalizing dllVersion path with
  | nil => exact List.mem_cons_self
  | cons offer rest ih =>
      rw [choose]
      split_ifs
      · obtain start | inside := List.mem_cons.mp (ih dllVersion path)
        · exact List.mem_cons.mpr (.inl start)
        · exact List.mem_cons_of_mem _ (List.mem_cons_of_mem _ inside)
      · exact List.mem_cons_of_mem _ List.mem_cons_self
      · exact List.mem_cons_of_mem _ (ih _ _)

theorem choose_mem_of_le {offers : List (Int × Wide)} {dllVersion : Int}
    (takes : ∃ offer ∈ offers, dllVersion ≤ offer.1) (path : Wide) :
    choose offers dllVersion path ∈ offers := by
  induction offers generalizing path with
  | nil => simp at takes
  | cons offer rest ih =>
      rw [choose]
      split_ifs with older
      · obtain ⟨other, inside, high⟩ := takes
        obtain rfl | inside := List.mem_cons.mp inside
        · exact absurd older (not_lt.mpr high)
        · exact List.mem_cons_of_mem _ (ih ⟨other, inside, high⟩ path)
      · exact List.mem_cons_self
      · exact choose_mem rest _ _

/-- Without version 2 nothing ends the walk early. -/
theorem le_choose_of_ne {offers : List (Int × Wide)} {dllVersion : Int}
    (unbroken : ∀ offer ∈ offers, dllVersion ≤ offer.1 → offer.1 ≠ 2) (path : Wide) :
    ∀ offer ∈ offers, offer.1 ≤ (choose offers dllVersion path).1 := by
  induction offers generalizing dllVersion path with
  | nil => simp
  | cons offer rest ih =>
      obtain ⟨first, rest_unbroken⟩ := List.forall_mem_cons.mp unbroken
      rw [choose]
      split_ifs with older second
      · have lower := le_choose rest dllVersion path
        exact List.forall_mem_cons.mpr ⟨older.le.trans lower, ih rest_unbroken path⟩
      · exact absurd second (first (not_lt.mp older))
      · refine List.forall_mem_cons.mpr ⟨le_choose rest _ _, ih ?_ _⟩
        exact fun other inside high => rest_unbroken other inside ((not_lt.mp older).trans high)

theorem choose_append {front : List (Int × Wide)} (low : ∀ offer ∈ front, ¬2 ≤ offer.1)
    (rest : List (Int × Wide)) (dllVersion : Int) (path : Wide) :
    choose (front ++ rest) dllVersion path =
      choose rest (choose front dllVersion path).1 (choose front dllVersion path).2 := by
  induction front generalizing dllVersion path with
  | nil => rfl
  | cons offer front ih =>
      obtain ⟨first, low⟩ := List.forall_mem_cons.mp low
      have other : offer.1 ≠ 2 := fun second => first second.ge
      rw [List.cons_append, choose, choose]
      split_ifs
      · exact ih low dllVersion path
      · exact ih low _ _

/-- If there is a version above 2 on offer, then the first offer from 2 on is none of version 2. -/
def Unbroken (offers : List (Int × Wide)) : Prop :=
  (∃ offer ∈ offers, 2 < offer.1) →
    ∀ first, offers.find? (fun offer => 2 ≤ offer.1) = some first → first.1 ≠ 2

/-- The walk that starts below version 2 ends with the highest one exactly if it is not broken
off. -/
theorem highest_iff (offers : List (Int × Wide)) {dllVersion : Int} (low : dllVersion < 2)
    (path : Wide) :
    (∀ offer ∈ offers, offer.1 ≤ (choose offers dllVersion path).1) ↔ Unbroken offers := by
  cases found : offers.find? fun offer => 2 ≤ offer.1 with
  | none =>
      have lower : ∀ offer ∈ offers, ¬2 ≤ offer.1 := by
        simpa [List.find?_eq_none] using found
      refine iff_of_true (le_choose_of_ne ?_ path) fun _ first other => ?_
      · exact fun offer inside _ second => lower offer inside second.ge
      · simp [found] at other
  | some first =>
      obtain ⟨from_second, front, back, rfl, front_low⟩ :=
        List.find?_eq_some_iff_append.mp found
      have high : 2 ≤ first.1 := by simpa using from_second
      have front_low : ∀ offer ∈ front, ¬2 ≤ offer.1 := by simpa using front_low
      have start := choose_mem front dllVersion path
      have below : (choose front dllVersion path).1 < 2 := by
        obtain same | inside := List.mem_cons.mp start
        · rw [same]
          exact low
        · exact not_le.mp (front_low _ inside)
      rw [choose_append front_low, choose, if_neg (by omega), Unbroken, found]
      by_cases second : first.1 = 2
      · rw [if_pos second]
        constructor
        · rintro highest ⟨offer, inside, above⟩
          have bound := highest offer inside
          omega
        · intro unbroken offer inside
          by_contra above
          exact unbroken ⟨offer, inside, by omega⟩ first rfl second
      · rw [if_neg second]
        refine iff_of_true ?_ fun _ other same => Option.some.inj same ▸ second
        have from_first := le_choose back first.1 first.2
        intro offer inside
        obtain inside | inside := List.mem_append.mp inside
        · have lower := front_low offer inside
          omega
        · obtain rfl | inside := List.mem_cons.mp inside
          · exact from_first
          · refine le_choose_of_ne (fun other _ above => ?_) first.2 offer inside
            omega

/-- `LoadDll` selects the highest version on offer, or it refuses because nothing is on offer. -/
inductive Selects (registry : Registry) (offers : List (Int × Wide)) : Prop
  | newest {offer : Int × Wide} (offered : offer ∈ offers)
      (highest : ∀ other ∈ offers, other.1 ≤ offer.1) (selected : registry.search = some offer)
  | refused (nothing : offers = [])
      (refuses : ∀ (driver : EdingDll) (loadLibrary : LoadLibrary), driver.cncDll = none →
        (EdingDll.loadDll registry loadLibrary).Ends driver fun answer next =>
          answer = false ∧ next = driver)

theorem search_eq {registry : Registry} {installed : List Installed}
    (listed : (registry.wow64 <|> registry.native) = some installed) :
    registry.search = some (choose (installed.filterMap Installed.offer) 0 []) := by
  rw [Registry.search, listed, Option.map_some, searchInstalled_eq (by decide)]

theorem refuses_of_nothing {registry : Registry} {installed : List Installed}
    (listed : (registry.wow64 <|> registry.native) = some installed)
    (nothing : installed.filterMap Installed.offer = []) :
    Selects registry (installed.filterMap Installed.offer) := by
  refine .refused nothing fun driver loadLibrary null => ?_
  have missing : EdingDll.Missing registry loadLibrary := by
    intro dllVersion path searched nonempty
    rw [search_eq listed, nothing, choose, Option.some.injEq, Prod.mk.injEq] at searched
    exact absurd searched.2.symm nonempty
  exact (EdingDll.ends_loadDll_of_missing null missing _).mpr ⟨rfl, rfl⟩

/-- `LoadDll` selects as it should exactly if the walk is not broken off and what is on offer, if
anything, is not all below version 0. -/
theorem selects_iff {registry : Registry} {installed : List Installed}
    (listed : (registry.wow64 <|> registry.native) = some installed) :
    Selects registry (installed.filterMap Installed.offer) ↔
      (installed.filterMap Installed.offer = [] ∨
          ∃ offer ∈ installed.filterMap Installed.offer, 0 ≤ offer.1) ∧
        Unbroken (installed.filterMap Installed.offer) := by
  have searched := search_eq listed
  have highest := highest_iff (installed.filterMap Installed.offer) (by decide : (0 : Int) < 2) []
  by_cases nothing : installed.filterMap Installed.offer = []
  · refine iff_of_true (refuses_of_nothing listed nothing) ⟨.inl nothing, ?_⟩
    rw [nothing]
    rintro ⟨offer, inside, -⟩
    cases inside
  · constructor
    · intro selects
      cases selects with
      | refused nothing' => exact absurd nothing' nothing
      | newest offered above selected =>
          obtain rfl := Option.some.inj (searched.symm.trans selected)
          exact ⟨.inr ⟨_, offered, le_choose _ _ _⟩, highest.mp above⟩
    · rintro ⟨empty | taken, unbroken⟩
      · exact absurd empty nothing
      · exact .newest (choose_mem_of_le taken []) (highest.mpr unbroken) searched

theorem version_le_of_perm {offers order : List (Int × Wide)} (perm : order.Perm offers)
    (unbroken : Unbroken offers) : (choose order 0 []).1 ≤ (choose offers 0 []).1 := by
  obtain start | inside := List.mem_cons.mp (choose_mem order 0 [])
  · rw [start]
    exact le_choose offers 0 []
  · exact (highest_iff offers (by decide) []).mpr unbroken _ (perm.mem_iff.mp inside)

/-- A key that comes first decides about the version if it is version 2 or above. -/
theorem exists_order {installed : List Installed} {offer : Int × Wide}
    (offered : offer ∈ installed.filterMap Installed.offer) (high : 2 ≤ offer.1) :
    ∃ order, order.Perm installed ∧
      if offer.1 = 2 then (searchInstalled order 0 []).1 = 2
      else 2 < (searchInstalled order 0 []).1 := by
  obtain ⟨key, inside, found⟩ := List.mem_filterMap.mp offered
  obtain ⟨front, back, rfl⟩ := List.append_of_mem inside
  refine ⟨key :: (front ++ back), List.perm_middle.symm, ?_⟩
  have taken : ¬offer.1 < 0 := by omega
  have later := le_choose ((front ++ back).filterMap Installed.offer) offer.1 offer.2
  rw [searchInstalled_eq (by decide), List.filterMap_cons, found]
  dsimp only
  rw [choose, if_neg taken]
  by_cases second : offer.1 = 2
  · rw [if_pos second, if_pos second]
    exact second
  · rw [if_neg second, if_neg second]
    omega

/-- All orders of the keys give the same version exactly if there are not both version 2 and a
version above it on offer. -/
theorem version_perm_iff (installed : List Installed) :
    (∀ order, order.Perm installed →
        (searchInstalled order 0 []).1 = (searchInstalled installed 0 []).1) ↔
      ¬((∃ offer ∈ installed.filterMap Installed.offer, offer.1 = 2) ∧
        ∃ offer ∈ installed.filterMap Installed.offer, 2 < offer.1) := by
  constructor
  · rintro same ⟨⟨second, offered, is_second⟩, ⟨later, offered', above⟩⟩
    obtain ⟨front, perm, broken⟩ := exists_order offered is_second.ge
    obtain ⟨back, perm', beyond⟩ := exists_order offered' above.le
    rw [if_pos is_second, same front perm] at broken
    rw [if_neg above.ne', same back perm', broken] at beyond
    exact absurd beyond (by decide)
  · intro apart order perm
    have offers := perm.filterMap Installed.offer
    have unbroken {walk : List (Int × Wide)}
        (same : walk.Perm (installed.filterMap Installed.offer)) : Unbroken walk := by
      rintro ⟨later, offered, above⟩ first found second
      have inside := List.mem_of_find?_eq_some found
      exact apart ⟨⟨first, same.mem_iff.mp inside, second⟩, later, same.mem_iff.mp offered, above⟩
    rw [searchInstalled_eq (by decide), searchInstalled_eq (by decide)]
    exact le_antisymm (version_le_of_perm offers (unbroken (.refl _)))
      (version_le_of_perm offers.symm (unbroken offers))

/-- In which orders `LoadDll` selects the highest version, and when the order makes no
difference. -/
theorem loadDll_selects_iff {registry : Registry} {installed : List Installed}
    (listed : (registry.wow64 <|> registry.native) = some installed) :
    (Selects registry (installed.filterMap Installed.offer) ↔
        (installed.filterMap Installed.offer = [] ∨
            ∃ offer ∈ installed.filterMap Installed.offer, 0 ≤ offer.1) ∧
          Unbroken (installed.filterMap Installed.offer)) ∧
      ((∀ order, order.Perm installed →
          (searchInstalled order 0 []).1 = (searchInstalled installed 0 []).1) ↔
        ¬((∃ offer ∈ installed.filterMap Installed.offer, offer.1 = 2) ∧
          ∃ offer ∈ installed.filterMap Installed.offer, 2 < offer.1)) :=
  ⟨selects_iff listed, version_perm_iff installed⟩

/-- A key as the setup of the vendor writes it. -/
def Installed.vendor (keyName installLocation : String) : Installed :=
  ⟨some (wide keyName), true, some (wide "EDING CNC B.V."), some (wide installLocation)⟩

/-- With 4.03 before 4.02, and a key of something else in between, the newer one is selected. -/
theorem loadDll_selects_first :
    Selects
      ⟨some [.vendor "CNC4.03" "C:", ⟨some (wide "Git"), true, none, none⟩,
        .vendor "CNC4.02" "D:"], none⟩
      ([.vendor "CNC4.03" "C:", ⟨some (wide "Git"), true, none, none⟩,
        .vendor "CNC4.02" "D:"].filterMap Installed.offer) := by
  refine (loadDll_selects_iff rfl).1.mpr
    ⟨.inr ⟨(3, wide "C:"), by decide, by decide⟩, fun _ first found => ?_⟩
  obtain rfl : (3, wide "C:") = first := Option.some.inj found
  decide

/-- With 4.02 before 4.03 the older one is selected. -/
theorem not_selects_of_second :
    ¬∀ (registry : Registry) (installed : List Installed),
      (registry.wow64 <|> registry.native) = some installed →
        Selects registry (installed.filterMap Installed.offer) ∧
          ∀ order, order.Perm installed →
            (searchInstalled order 0 []).1 = (searchInstalled installed 0 []).1 := by
  intro always
  have selects := (always
    ⟨some [.vendor "CNC4.02" "C:", .vendor "CNC4.03" "D:"], none⟩ _ rfl).1
  have unbroken := ((selects_iff rfl).mp selects).2
  exact unbroken ⟨(3, wide "D:"), by decide, by decide⟩ (2, wide "C:") (by decide) rfl

end CncRemote
