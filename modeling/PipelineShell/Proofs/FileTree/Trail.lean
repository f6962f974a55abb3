import PipelineShell.FileTree.Lookup

/-!
# Trails

The trail of a lookup: the places that it looks at, and the one where it ends. A lookup does not see the
bytes of files or their set-ID bits, only the `shape?` of what stands at a place, so two trees with the
same grants in which the same shapes stand along a trail give the same answer (`locate_congr`). A lookup
that finds something has seen an object at every place of its trail (`isSome_of_mem_trail`).
-/

namespace PipelineShell

/-- An object without what a write changes: the bytes of a file and its set-ID bits. This is what a
lookup sees of it. -/
def Entry.shape : Entry → Entry
  | .directory => .directory
  | .link target => .link target
  | .file _ mode => .file [] (Entry.lastingBits mode)

namespace FileTree

/-- The place where a lookup ends. -/
def Spot.place : Spot → Place
  | .taken place => place
  | .free place => place

/-! ## Shapes -/

/-- What a lookup sees at a place. -/
def shape? (t : FileTree) (place : Place) : Option Entry := (t.find? place).map Entry.shape

variable {t t' : FileTree} {place : Place}

theorem shape?_eq_none_iff : t.shape? place = none ↔ t.find? place = none := by
  simp [shape?]

theorem shape?_eq_directory_iff :
    t.shape? place = some .directory ↔ t.find? place = some .directory := by
  unfold shape?
  cases t.find? place with
  | none => simp
  | some entry => cases entry <;> simp [Entry.shape]

theorem shape?_eq_link_iff {target : String} :
    t.shape? place = some (.link target) ↔ t.find? place = some (.link target) := by
  unfold shape?
  cases t.find? place with
  | none => simp
  | some entry => cases entry <;> simp [Entry.shape]

theorem shape?_eq_file_iff {bits : Nat} :
    t.shape? place = some (.file [] bits) ↔
      ∃ content mode, t.find? place = some (.file content mode) ∧ Entry.lastingBits mode = bits := by
  unfold shape?
  cases t.find? place with
  | none => simp
  | some entry => cases entry <;> simp [Entry.shape, and_assoc]

theorem shape?_congr (h : t'.find? place = t.find? place) : t'.shape? place = t.shape? place := by
  rw [shape?, shape?, h]

/-! ## Trails -/

/-- The places that `walkWith` looks at, and the one where it ends. A link is followed by the places
that `jump` gives. -/
def trailWith (t : FileTree) (aim : Aim) (jump : Place → String → List String → List Place) :
    Place → List String → List Place
  | place, [] => [place]
  | place, name :: rest =>
    if name = "" then trailWith t aim jump place rest
    else if (t.grant place).enters = false then []
    else if name = "." then trailWith t aim jump place rest
    else if name = ".." then trailWith t aim jump place.tail rest
    else if aim = .newFile ∧ rest = [""] then []
    else if (Text.encode name).length > maxName then []
    else
      (name :: place) ::
        match t.find? (name :: place) with
        | none => []
        | some .directory => trailWith t aim jump (name :: place) rest
        | some (.file _ _) => []
        | some (.link target) => if rest = [] ∧ aim = .name then [] else jump place target rest

/-- The places that `walk` looks at. -/
def trailThrough (t : FileTree) (aim : Aim) : Nat → Place → List String → List Place
  | 0 => t.trailWith aim fun _ _ _ => []
  | links + 1 => t.trailWith aim fun place target rest =>
    trailThrough t aim links (origin place target) (steps target ++ rest)

/-- The places that `locate` looks at. -/
def trail (t : FileTree) (aim : Aim) (start : Place) (path : String) : List Place :=
  if path = "" then []
  else if (Text.encode path).length > maxPath then []
  else t.trailThrough aim maxLinks (origin start path) (steps path)

/-! ## Trees that agree along a trail -/

theorem walkWith_congr (hgrants : t'.grants = t.grants) {aim : Aim}
    {jump jump' : Place → String → List String → Except SystemError Spot}
    {next : Place → String → List String → List Place}
    (hjump : ∀ place target rest, (∀ p ∈ next place target rest, t'.shape? p = t.shape? p) →
      jump' place target rest = jump place target rest)
    (place : Place) (names : List String)
    (h : ∀ p ∈ t.trailWith aim next place names, t'.shape? p = t.shape? p) :
    t'.walkWith aim jump' place names = t.walkWith aim jump place names := by
  induction names generalizing place with
  | nil => rfl
  | cons name rest ih =>
    simp only [walkWith, trailWith, grant_congr hgrants] at h ⊢
    split
    · next hempty => exact ih place (by simpa only [if_pos hempty] using h)
    · next hempty =>
      rw [if_neg hempty] at h
      split
      · rfl
      · next henters =>
        rw [if_neg henters] at h
        split
        · next hdot => exact ih place (by simpa only [if_pos hdot] using h)
        · next hdot =>
          rw [if_neg hdot] at h
          split
          · next hup => exact ih place.tail (by simpa only [if_pos hup] using h)
          · next hup =>
            rw [if_neg hup] at h
            split
            · rfl
            · next hnew =>
              rw [if_neg hnew] at h
              split
              · rfl
              · next hlong =>
                simp only [if_neg hlong, List.mem_cons, forall_eq_or_imp] at h
                obtain ⟨hhere, hafter⟩ := h
                cases hfind : t.find? (name :: place) with
                | none =>
                  rw [shape?_eq_none_iff.2 hfind] at hhere
                  rw [shape?_eq_none_iff.1 hhere]
                | some entry =>
                  cases entry with
                  | directory =>
                    rw [shape?_eq_directory_iff.2 hfind] at hhere
                    rw [shape?_eq_directory_iff.1 hhere]
                    exact ih (name :: place) (by simpa [hfind] using hafter)
                  | file content mode =>
                    rw [shape?_eq_file_iff.2 ⟨content, mode, hfind, rfl⟩] at hhere
                    obtain ⟨content', mode', hfind', -⟩ := shape?_eq_file_iff.1 hhere
                    rw [hfind']
                  | link target =>
                    rw [shape?_eq_link_iff.2 hfind] at hhere
                    rw [shape?_eq_link_iff.1 hhere]
                    simp only [hfind] at hafter ⊢
                    split
                    · rfl
                    · next hlast => exact hjump place target rest (by simpa [hlast] using hafter)

theorem walk_congr (hgrants : t'.grants = t.grants) {aim : Aim} (links : Nat) (place : Place)
    (names : List String)
    (h : ∀ p ∈ t.trailThrough aim links place names, t'.shape? p = t.shape? p) :
    t'.walk aim links place names = t.walk aim links place names := by
  induction links generalizing place names with
  | zero => exact walkWith_congr hgrants (fun _ _ _ _ => rfl) place names h
  | succ links ih =>
    refine walkWith_congr hgrants ?_ place names h
    intro place target rest hnext
    exact ih (origin place target) (steps target ++ rest) hnext

theorem locate_congr (hgrants : t'.grants = t.grants) {aim : Aim} {start : Place} {path : String}
    (h : ∀ p ∈ t.trail aim start path, t'.shape? p = t.shape? p) :
    t'.locate aim start path = t.locate aim start path := by
  simp only [locate, trail] at h ⊢
  split
  · rfl
  · next hempty =>
    split
    · rfl
    · next hlong =>
      simp only [hempty, hlong, if_false] at h
      exact walk_congr hgrants maxLinks (origin start path) (steps path) h

/-! ## What stands along a trail -/

/-- A lookup can pass through a place: there is a directory or a link. -/
def Open (t : FileTree) (place : Place) : Prop :=
  t.find? place = some .directory ∨ ∃ target, t.find? place = some (.link target)

theorem Open.isSome (h : t.Open place) : (t.find? place).isSome := by
  rcases h with h | ⟨target, h⟩
  · simp [h]
  · simp [h]

/-- What is known of the trail of a lookup that ends at `spot`: it leads there, and every place on
the way is open. -/
def LeadsTo (t : FileTree) (spot : Spot) (trail : List Place) : Prop :=
  spot.place ∈ trail ∧ ∀ p ∈ trail, p = spot.place ∨ t.Open p

theorem LeadsTo.singleton (t : FileTree) {spot : Spot} (h : spot.place = place) :
    t.LeadsTo spot [place] := by
  subst h
  exact ⟨List.mem_singleton_self _, fun p hp => .inl (List.mem_singleton.1 hp)⟩

theorem LeadsTo.cons {spot : Spot} {trail : List Place} (hopen : t.Open place)
    (h : t.LeadsTo spot trail) : t.LeadsTo spot (place :: trail) := by
  obtain ⟨hmem, hall⟩ := h
  refine ⟨List.mem_cons_of_mem _ hmem, ?_⟩
  intro p hp
  rcases List.mem_cons.1 hp with rfl | hp
  · exact .inr hopen
  · exact hall p hp

theorem leadsTo_trailWith {aim : Aim} {jump : Place → String → List String → Except SystemError Spot}
    {next : Place → String → List String → List Place} {spot : Spot}
    (hjump : ∀ place target rest, jump place target rest = .ok spot →
      t.LeadsTo spot (next place target rest))
    (place : Place) (names : List String) (h : t.walkWith aim jump place names = .ok spot) :
    t.LeadsTo spot (t.trailWith aim next place names) := by
  fun_induction walkWith t aim jump place names with
  | case1 place =>
    cases h
    exact .singleton t rfl
  | case2 place rest ih =>
    rw [trailWith, if_pos rfl]
    exact ih h
  | case3 => cases h
  | case4 place rest henters hempty ih =>
    rw [trailWith, if_neg hempty, if_neg henters, if_pos rfl]
    exact ih h
  | case5 place rest henters hempty hdot ih =>
    rw [trailWith, if_neg hempty, if_neg henters, if_neg hdot, if_pos rfl]
    exact ih h
  | case6 => cases h
  | case7 => cases h
  | case8 place name hempty henters hdot hup hlong hfind hnew =>
    cases h
    rw [trailWith, if_neg hempty, if_neg henters, if_neg hdot, if_neg hup, if_neg hnew, if_neg hlong,
      hfind]
    exact .singleton t rfl
  | case9 => cases h
  | case10 place name rest hempty henters hdot hup hnew hlong hfind ih =>
    rw [trailWith, if_neg hempty, if_neg henters, if_neg hdot, if_neg hup, if_neg hnew, if_neg hlong,
      hfind]
    exact .cons (.inl hfind) (ih h)
  | case11 place name hempty henters hdot hup hlong content mode hfind hnew =>
    cases h
    rw [trailWith, if_neg hempty, if_neg henters, if_neg hdot, if_neg hup, if_neg hnew, if_neg hlong,
      hfind]
    exact .singleton t rfl
  | case12 => cases h
  | case13 place name rest hempty henters hdot hup hnew hlong target hfind hlast =>
    cases h
    rw [trailWith, if_neg hempty, if_neg henters, if_neg hdot, if_neg hup, if_neg hnew, if_neg hlong,
      hfind]
    simp only [if_pos hlast]
    exact .singleton t rfl
  | case14 place name rest hempty henters hdot hup hnew hlong target hfind hlast =>
    rw [trailWith, if_neg hempty, if_neg henters, if_neg hdot, if_neg hup, if_neg hnew, if_neg hlong,
      hfind]
    simp only [if_neg hlast]
    exact .cons (.inr ⟨target, hfind⟩) (hjump place target rest h)

theorem leadsTo_trailThrough {aim : Aim} {spot : Spot} (links : Nat) (place : Place)
    (names : List String) (h : t.walk aim links place names = .ok spot) :
    t.LeadsTo spot (t.trailThrough aim links place names) := by
  induction links generalizing place names with
  | zero => exact leadsTo_trailWith (fun _ _ _ hjump => by cases hjump) place names h
  | succ links ih =>
    refine leadsTo_trailWith ?_ place names h
    intro place target rest hjump
    exact ih (origin place target) (steps target ++ rest) hjump

theorem leadsTo_trail {aim : Aim} {start : Place} {path : String} {spot : Spot}
    (h : t.locate aim start path = .ok spot) : t.LeadsTo spot (t.trail aim start path) := by
  simp only [locate, trail] at h ⊢
  split at h
  · cases h
  · next hempty =>
    split at h
    · cases h
    · next hlong =>
      rw [if_neg hempty, if_neg hlong]
      exact leadsTo_trailThrough maxLinks (origin start path) (steps path) h

/-- A lookup ends on its trail. -/
theorem place_mem_trail {aim : Aim} {start : Place} {path : String} {spot : Spot}
    (h : t.locate aim start path = .ok spot) : spot.place ∈ t.trail aim start path :=
  (leadsTo_trail h).1

/-! ## Objects that lookups find -/

theorem status_eq_ok_iff {start : Place} {path : String} {place : Place} {entry : Entry} :
    t.status start path = .ok (place, entry) ↔
      t.locate .object start path = .ok (.taken place) ∧ t.find? place = some entry := by
  unfold status
  split
  · next e he => simp [he]
  · next p hp => simp [hp]
  · next p hp =>
    rw [hp]
    constructor
    · intro h
      split at h
      · cases h
      · next e he =>
        cases h
        exact ⟨rfl, he⟩
    · rintro ⟨hp, he⟩
      cases hp
      rw [he]

theorem directory?_eq_some_iff {start : Place} {path : String} {place : Place} :
    t.directory? start path = some place ↔
      hasNul path = false ∧ t.status start path = .ok (place, .directory) := by
  unfold directory?
  cases hasNul path with
  | true => simp
  | false =>
    simp only [Bool.false_eq_true, if_false, true_and]
    constructor
    · intro h
      split at h
      · next hstatus =>
        cases h
        exact hstatus
      · cases h
    · intro h
      rw [h]

/-- An object that a lookup finds has objects all along the way to it. -/
theorem isSome_of_mem_trail {start : Place} {path : String} {place : Place} {entry : Entry}
    (h : t.status start path = .ok (place, entry)) :
    ∀ p ∈ t.trail .object start path, (t.find? p).isSome := by
  obtain ⟨hlocate, hfind⟩ := status_eq_ok_iff.1 h
  intro p hp
  rcases (leadsTo_trail hlocate).2 p hp with hend | hopen
  · have hplace : p = place := hend
    simp [hplace, hfind]
  · exact hopen.isSome

/-- Trees with the same objects along a trail have the same object at its end. -/
theorem status_congr (hgrants : t'.grants = t.grants) {start : Place} {path : String}
    (h : ∀ p ∈ t.trail .object start path, t'.find? p = t.find? p) :
    t'.status start path = t.status start path := by
  have hlocate := locate_congr hgrants fun p hp => shape?_congr (h p hp)
  unfold status
  rw [hlocate]
  split
  · rfl
  · rfl
  · next place hplace => rw [h place (place_mem_trail hplace)]

theorem pathExists_congr (hgrants : t'.grants = t.grants) {start : Place} {path : String}
    (h : ∀ p ∈ t.trail .object start path, t'.find? p = t.find? p) :
    t'.pathExists start path = t.pathExists start path := by
  rw [pathExists, pathExists, status_congr hgrants h]

theorem directory?_congr (hgrants : t'.grants = t.grants) {start : Place} {path : String}
    (h : ∀ p ∈ t.trail .object start path, t'.find? p = t.find? p) :
    t'.directory? start path = t.directory? start path := by
  rw [directory?, directory?, status_congr hgrants h]

end FileTree

end PipelineShell
