import Mathlib.Data.List.Basic

/-!
# A walk over lists that do not change

A reader goes through lists one after the other, each of them page by page, and turns every
row into some items. Where the lists stay as they are, the walk ends and has collected what
the rows become, in their order.
-/
namespace Ekip.Lib

variable {ι κ γ ρ : Type}

/-- The pages from a cursor on; `none` where the fuel runs out first. -/
def walk (fetch : κ → List ι × Option κ) : Nat → κ → Option (List ι)
  | 0, _ => none
  | fuel + 1, c =>
    match (fetch c).2 with
    | none => some (fetch c).1
    | some next => (walk fetch fuel next).map ((fetch c).1 ++ ·)

/-- Some walk from the cursor ends with these items. -/
def Collects (fetch : κ → List ι × Option κ) (c : κ) (items : List ι) : Prop :=
  ∃ fuel, walk fetch fuel c = some items

namespace Collects

variable {fetch : κ → List ι × Option κ} {c next : κ} {items items' : List ι}

theorem last (h : (fetch c).2 = none) : Collects fetch c (fetch c).1 := by
  refine ⟨1, ?_⟩
  unfold walk
  rw [h]

theorem more (h : (fetch c).2 = some next) (hrest : Collects fetch next items) :
    Collects fetch c ((fetch c).1 ++ items) := by
  obtain ⟨fuel, hfuel⟩ := hrest
  refine ⟨fuel + 1, ?_⟩
  unfold walk
  rw [h]
  dsimp only
  rw [hfuel]
  rfl

/-- Whatever the fuel, a walk that ends collects the same. -/
theorem unique (h : Collects fetch c items) (h' : Collects fetch c items') : items = items' := by
  obtain ⟨fuel, hfuel⟩ := h
  obtain ⟨fuel', hfuel'⟩ := h'
  induction fuel generalizing fuel' c items items' with
  | zero => cases hfuel
  | succ fuel ih =>
    cases fuel' with
    | zero => cases hfuel'
    | succ fuel' =>
      unfold walk at hfuel hfuel'
      cases hnext : (fetch c).2 with
      | none =>
        rw [hnext] at hfuel hfuel'
        exact (Option.some.inj hfuel).symm.trans (Option.some.inj hfuel')
      | some next =>
        rw [hnext] at hfuel hfuel'
        obtain ⟨rest, hrest, rfl⟩ := Option.map_eq_some_iff.mp hfuel
        obtain ⟨rest', hrest', rfl⟩ := Option.map_eq_some_iff.mp hfuel'
        rw [ih hrest fuel' hrest']

end Collects

/-! ## One list after the other -/

variable {containers : List γ} {rows : γ → List ρ} {shown : γ → ρ → List ι}

/-- What one page of a list does: it shows the next rows, some at least, or all that are
left, and then goes on to the next list. -/
structure Turn (containers : List γ) (rows : γ → List ρ) (shown : γ → ρ → List ι)
    (place : κ → Nat × Nat) (c : κ) (container : γ) (page : List ι × Option κ) : Prop where
  turns : ∃ taken rest, (rows container).drop (place c).2 = taken ++ rest ∧
    page.1 = taken.flatMap (shown container) ∧
    ((taken ≠ [] ∧ ∃ next, page.2 = some next ∧ (place next).1 = (place c).1 ∧
        (rows container).drop (place next).2 = rest) ∨
      (rest = [] ∧ (place c).1 + 1 < containers.length ∧
        ∃ next, page.2 = some next ∧ place next = ((place c).1 + 1, 0)) ∨
      rest = [] ∧ containers.length ≤ (place c).1 + 1 ∧ page.2 = none)

/-- What every page does, from whatever cursor. -/
structure Visits (containers : List γ) (rows : γ → List ρ) (shown : γ → ρ → List ι)
    (place : κ → Nat × Nat) (fetch : κ → List ι × Option κ) : Prop where
  ended : ∀ c, containers[(place c).1]? = none → fetch c = ([], none)
  turn : ∀ c container, containers[(place c).1]? = some container →
    Turn containers rows shown place c container (fetch c)

/-- The rows of a list become these items. -/
def itemsOf (rows : γ → List ρ) (shown : γ → ρ → List ι) (container : γ) : List ι :=
  (rows container).flatMap (shown container)

/-- What is left from a place on. -/
def remaining (containers : List γ) (rows : γ → List ρ) (shown : γ → ρ → List ι)
    (place : Nat × Nat) : List ι :=
  match containers.drop place.1 with
  | [] => []
  | container :: later =>
    ((rows container).drop place.2).flatMap (shown container) ++
      later.flatMap (itemsOf rows shown)

theorem remaining_start (containers : List γ) (rows : γ → List ρ) (shown : γ → ρ → List ι) :
    remaining containers rows shown (0, 0) = containers.flatMap (itemsOf rows shown) := by
  cases containers <;> rfl

theorem remaining_of_some {place : Nat × Nat} {container : γ}
    (h : containers[place.1]? = some container) :
    remaining containers rows shown place =
      ((rows container).drop place.2).flatMap (shown container) ++
        (containers.drop (place.1 + 1)).flatMap (itemsOf rows shown) := by
  obtain ⟨hlt, hget⟩ := List.getElem?_eq_some_iff.mp h
  unfold remaining
  rw [List.drop_eq_getElem_cons hlt, hget]

theorem remaining_of_none {place : Nat × Nat} (h : containers[place.1]? = none) :
    remaining containers rows shown place = [] := by
  unfold remaining
  rw [List.drop_eq_nil_of_le (List.getElem?_eq_none_iff.mp h)]

theorem remaining_next (i : Nat) : remaining containers rows shown (i, 0) =
    (containers.drop i).flatMap (itemsOf rows shown) := by
  unfold remaining
  cases containers.drop i <;> rfl

/-- The walk ends and collects what is left. The measure is the number of lists that are
left, and then the number of rows that are left of the present one. -/
theorem Visits.collects {place : κ → Nat × Nat} {fetch : κ → List ι × Option κ}
    (h : Visits containers rows shown place fetch) (c : κ) :
    Collects fetch c (remaining containers rows shown (place c)) := by
  induction hlists : containers.length - (place c).1 using Nat.strongRecOn generalizing c with
  | _ lists ihlists =>
    cases hcontainer : containers[(place c).1]? with
    | none =>
      have hfetch := h.ended c hcontainer
      have hlast : Collects fetch c (fetch c).1 := Collects.last (by rw [hfetch])
      rw [hfetch] at hlast
      rw [remaining_of_none hcontainer]
      exact hlast
    | some container =>
      induction hrows : ((rows container).drop (place c).2).length using
        Nat.strongRecOn generalizing c with
      | _ left ihrows =>
        obtain ⟨taken, rest, hdrop, hpage, hnext⟩ := (h.turn c container hcontainer).turns
        have hlt : (place c).1 < containers.length := (List.getElem?_eq_some_iff.mp hcontainer).1
        rw [remaining_of_some hcontainer, hdrop, List.flatMap_append, ← hpage, List.append_assoc]
        rcases hnext with ⟨htaken, next, hmore, hsame, hrest⟩ | ⟨rfl, hlater, next, hmore, hplace⟩ |
          ⟨rfl, hend, hdone⟩
        · have hthere : containers[(place next).1]? = some container := by
            rw [hsame]
            exact hcontainer
          have hfewer : rest.length < left := by
            have hpos : 0 < taken.length := List.length_pos_of_ne_nil htaken
            rw [← hrows, hdrop, List.length_append]
            omega
          have hcollects := ihrows rest.length hfewer next (by rw [hsame, hlists]) hthere
            (by rw [hrest])
          rw [remaining_of_some hthere, hrest, hsame] at hcollects
          exact Collects.more hmore hcollects
        · have hcollects := ihlists (containers.length - (place next).1)
            (by rw [hplace]; dsimp only; omega) next rfl
          rw [hplace, remaining_next] at hcollects
          exact Collects.more hmore hcollects
        · rw [List.drop_eq_nil_of_le hend]
          have hlast : Collects fetch c (fetch c).1 := Collects.last hdone
          simpa using hlast

/-- Every row of every list is shown. -/
theorem Visits.collects_all {place : κ → Nat × Nat} {fetch : κ → List ι × Option κ}
    (h : Visits containers rows shown place fetch) {c : κ} (hstart : place c = (0, 0)) :
    Collects fetch c (containers.flatMap (itemsOf rows shown)) := by
  have hcollects := h.collects c
  rw [hstart, remaining_start] at hcollects
  exact hcollects

end Ekip.Lib

/-!
## A walk over lists that change between its pages

The reader of `Visits`, where every page sees the lists in another state. The walk ends where
the lists stay below some length. A row that is there all the time is shown, unless it slips
from behind the place of the reader to before it.
-/
namespace Ekip.Lib

variable {σ ι κ γ ρ : Type}

/-- The cursor after some pages, `none` at the end, and all that was returned. Page `n` sees
the state `n`. -/
def visitAfter (fetch : σ → κ → List ι × Option κ) (states : Nat → σ) (start : κ) :
    Nat → Option κ × List ι
  | 0 => (some start, [])
  | n + 1 =>
    match visitAfter fetch states start n with
    | (none, items) => (none, items)
    | (some c, items) => ((fetch (states n) c).2, items ++ (fetch (states n) c).1)

section Steps

variable {fetch : σ → κ → List ι × Option κ} {states : Nat → σ} {start c : κ} {items : List ι} {n : Nat}

theorem visitAfter_ended (h : visitAfter fetch states start n = (none, items)) :
    visitAfter fetch states start (n + 1) = (none, items) := by
  unfold visitAfter
  rw [h]

theorem visitAfter_page (h : visitAfter fetch states start n = (some c, items)) :
    visitAfter fetch states start (n + 1) =
      ((fetch (states n) c).2, items ++ (fetch (states n) c).1) := by
  conv_lhs => unfold visitAfter
  rw [h]

/-- Where nothing changes it is the walk over one state. -/
theorem collects_of_ended {s : σ} (h : visitAfter fetch (fun _ => s) start n = (none, items)) :
    Collects (fetch s) start items := by
  have hall : ∀ n, match visitAfter fetch (fun _ => s) start n with
      | (none, items) => Collects (fetch s) start items
      | (some c, items) => ∀ rest, Collects (fetch s) c rest → Collects (fetch s) start (items ++ rest) := by
    intro n
    induction n with
    | zero =>
      intro rest hrest
      exact hrest
    | succ n ih =>
      cases hvisit : visitAfter fetch (fun _ => s) start n with
      | mk cursor collected =>
        rw [hvisit] at ih
        cases cursor with
        | none =>
          rw [visitAfter_ended hvisit]
          exact ih
        | some c =>
          rw [visitAfter_page hvisit]
          cases hnext : (fetch s c).2 with
          | none => exact ih _ (Collects.last hnext)
          | some next =>
            intro rest hrest
            rw [List.append_assoc]
            exact ih _ (Collects.more hnext hrest)
  have hended := hall n
  rw [h] at hended
  exact hended

end Steps

/-! ## Every state is walked in the same way -/

section Changing

variable {containers : List γ} {rows : σ → γ → List ρ} {shown : σ → γ → ρ → List ι}
  {place : κ → Nat × Nat} {fetch : σ → κ → List ι × Option κ} {states : Nat → σ} {start c : κ}
  {items : List ι} {n : Nat}

/-- Pages that are left at most, where no list is longer than the bound. -/
def pagesLeft (containers : List γ) (place : κ → Nat × Nat) (bound : Nat) (c : κ) : Nat :=
  (containers.length - (place c).1) * (bound + 1) + (bound - (place c).2)

theorem pagesLeft_lt {bound : Nat} {s : σ} {next : κ} (h : Visits containers (rows s) (shown s) place (fetch s))
    (hbound : ∀ container ∈ containers, (rows s container).length ≤ bound)
    (hnext : (fetch s c).2 = some next) :
    pagesLeft containers place bound next < pagesLeft containers place bound c := by
  cases hcontainer : containers[(place c).1]? with
  | none =>
    rw [h.ended c hcontainer] at hnext
    cases hnext
  | some container =>
    have hlt : (place c).1 < containers.length := (List.getElem?_eq_some_iff.mp hcontainer).1
    have hlength := hbound container (List.mem_of_getElem? hcontainer)
    obtain ⟨taken, rest, hdrop, -, hplace⟩ := (h.turn c container hcontainer).turns
    unfold pagesLeft
    rcases hplace with ⟨htaken, next', hmore, hsame, hrest⟩ | ⟨-, hlater, next', hmore, hplace'⟩ |
      ⟨-, -, hdone⟩
    · obtain rfl := Option.some.inj (hmore.symm.trans hnext)
      have hlengths := congrArg List.length hdrop
      have hrests := congrArg List.length hrest
      have hpos : 0 < taken.length := List.length_pos_of_ne_nil htaken
      rw [List.length_append, List.length_drop] at hlengths
      rw [List.length_drop] at hrests
      rw [hsame]
      omega
    · obtain rfl := Option.some.inj (hmore.symm.trans hnext)
      have hstep : containers.length - (place c).1 = containers.length - ((place c).1 + 1) + 1 := by
        omega
      rw [hplace', hstep, Nat.add_mul]
      dsimp only
      omega
    · rw [hdone] at hnext
      cases hnext

/-- The walk ends where the lists stay below some length. -/
theorem ends_of_bounded (h : ∀ s, Visits containers (rows s) (shown s) place (fetch s)) {bound : Nat}
    (hbound : ∀ n, ∀ container ∈ containers, (rows (states n) container).length ≤ bound) (start : κ) :
    ∃ n items, visitAfter fetch states start n = (none, items) := by
  by_contra hnever
  have hrunning : ∀ n, ∃ c items, visitAfter fetch states start n = (some c, items) ∧
      pagesLeft containers place bound c + n ≤ pagesLeft containers place bound start := by
    intro n
    induction n with
    | zero => exact ⟨start, [], rfl, Nat.le_refl _⟩
    | succ n ih =>
      obtain ⟨c, items, hvisit, hleft⟩ := ih
      have hpage := visitAfter_page hvisit
      cases hnext : (fetch (states n) c).2 with
      | none =>
        rw [hnext] at hpage
        exact absurd ⟨n + 1, _, hpage⟩ hnever
      | some next =>
        rw [hnext] at hpage
        have hlt := pagesLeft_lt (h (states n)) (hbound n) hnext
        exact ⟨next, _, hpage, by omega⟩
  obtain ⟨c, items, -, hleft⟩ := hrunning (pagesLeft containers place bound start + 1)
  omega

/-- Nothing that is ahead in the present list slips before the place of the reader. -/
def NoSlip (containers : List γ) (rows : σ → γ → List ρ) (place : κ → Nat × Nat)
    (fetch : σ → κ → List ι × Option κ) (states : Nat → σ) (start : κ) (i : Nat) : Prop :=
  ∀ n c items, visitAfter fetch states start (n + 1) = (some c, items) → (place c).1 = i →
    ∀ container, containers[i]? = some container → ∀ row ∈ (rows (states n) container).drop (place c).2,
      row ∈ rows (states (n + 1)) container → row ∈ (rows (states (n + 1)) container).drop (place c).2

variable {container : γ} {row : ρ} {i : Nat}

/-- The row was shown, or it is still to come. -/
def Awaits (rows : σ → γ → List ρ) (shown : σ → γ → ρ → List ι) (place : κ → Nat × Nat)
    (states : Nat → σ) (i : Nat) (container : γ) (row : ρ) (n : Nat) (visit : Option κ × List ι) : Prop :=
  (∃ k, shown (states k) container row ⊆ visit.2) ∨
    ∃ c, visit.1 = some c ∧ ((place c).1 < i ∨
      (place c).1 = i ∧ row ∈ (rows (states n) container).drop (place c).2)

theorem awaits_step (h : ∀ s, Visits containers (rows s) (shown s) place (fetch s))
    (hcontainer : containers[i]? = some container) (hrow : ∀ n, row ∈ rows (states n) container)
    (hslip : NoSlip containers rows place fetch states start i)
    (hawaits : Awaits rows shown place states i container row n (visitAfter fetch states start n)) :
    Awaits rows shown place states i container row (n + 1) (visitAfter fetch states start (n + 1)) := by
  cases hvisit : visitAfter fetch states start n with
  | mk cursor items =>
  rw [hvisit] at hawaits
  rcases hawaits with ⟨k, hshown⟩ | ⟨c, hcursor, hahead⟩
  · refine .inl ⟨k, ?_⟩
    cases cursor with
    | none =>
      rw [visitAfter_ended hvisit]
      exact hshown
    | some c =>
      rw [visitAfter_page hvisit]
      exact List.Subset.trans hshown (List.subset_append_left _ _)
  · obtain rfl : cursor = some c := hcursor
    have hpage := visitAfter_page hvisit
    have hilt : i < containers.length := (List.getElem?_eq_some_iff.mp hcontainer).1
    have hhere : ∃ present, containers[(place c).1]? = some present := by
      have hlt : (place c).1 < containers.length := by
        rcases hahead with hlater | ⟨hsame, -⟩ <;> omega
      exact ⟨_, List.getElem?_eq_getElem hlt⟩
    obtain ⟨present, hpresent⟩ := hhere
    obtain ⟨taken, rest, hdrop, hitems, hplace⟩ := ((h (states n)).turn c present hpresent).turns
    rcases hahead with hlater | ⟨hsame, hmem⟩
    · rcases hplace with ⟨-, next, hnext, hstays, -⟩ | ⟨-, -, next, hnext, hmoves⟩ | ⟨-, hend, -⟩
      · rw [hpage, hnext]
        exact .inr ⟨next, rfl, .inl (by omega)⟩
      · rw [hpage, hnext]
        refine .inr ⟨next, rfl, ?_⟩
        rw [hmoves]
        by_cases hnow : (place c).1 + 1 = i
        · exact .inr ⟨hnow, hrow (n + 1)⟩
        · exact .inl (show (place c).1 + 1 < i by omega)
      · omega
    · obtain rfl : present = container := by
        rw [hsame, hcontainer] at hpresent
        exact (Option.some.inj hpresent).symm
      rw [hdrop] at hmem
      rcases List.mem_append.mp hmem with htaken | hrest
      · refine .inl ⟨n, ?_⟩
        rw [hpage, hitems]
        intro raw hraw
        exact List.mem_append_right _ (List.mem_flatMap.mpr ⟨row, htaken, hraw⟩)
      · rcases hplace with ⟨-, next, hnext, hstays, hleft⟩ | ⟨rfl, -⟩ | ⟨rfl, -⟩
        · rw [hnext] at hpage
          have hplaced : (place next).1 = i := hstays.trans hsame
          rw [← hleft] at hrest
          have hstill := hslip n next _ hpage hplaced present hcontainer row hrest (hrow (n + 1))
          rw [hpage]
          exact .inr ⟨next, rfl, .inr ⟨hplaced, hstill⟩⟩
        · cases hrest
        · cases hrest

/-- What a walk that has ended has shown of a row that was there all the time. -/
theorem shown_of_ended (h : ∀ s, Visits containers (rows s) (shown s) place (fetch s))
    (hstart : place start = (0, 0)) (hcontainer : containers[i]? = some container)
    (hrow : ∀ n, row ∈ rows (states n) container)
    (hslip : NoSlip containers rows place fetch states start i)
    (hend : visitAfter fetch states start n = (none, items)) :
    ∃ k, shown (states k) container row ⊆ items := by
  have hall : ∀ n, Awaits rows shown place states i container row n (visitAfter fetch states start n) := by
    intro n
    induction n with
    | zero =>
      refine .inr ⟨start, rfl, ?_⟩
      rw [hstart]
      by_cases hzero : i = 0
      · exact .inr ⟨hzero.symm, hrow 0⟩
      · exact .inl (Nat.pos_of_ne_zero hzero)
    | succ n ih => exact awaits_step h hcontainer hrow hslip ih
  have hawaits := hall n
  rw [hend] at hawaits
  rcases hawaits with hshown | ⟨c, hcursor, -⟩
  · exact hshown
  · cases hcursor

end Changing

end Ekip.Lib
