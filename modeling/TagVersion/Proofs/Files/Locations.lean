import TagVersion.Proofs.Files.Shape

/-!
# Paths and locations

A path of plain names leads down from a directory, to the location that it spells, unless a link leads
it elsewhere.

* **`Path.names_append`**: the names of a path are those of its parts.
* **`Path.names_injective`**: a path is told by its names.
* **`FileTree.IsTree`**: everything lies in a directory.
* **`FileTree.Leads`**: the ways on which names are followed, with **`FileTree.walk_eq_ok_iff`**.
* **`FileTree.leads_of_resolve_join`**: from where a path in a project is followed.
* **`FileTree.IsDirect`**, **`FileTree.resolve_join`**: where a plain path in a project leads.
-/

namespace TagVersion

/-! ## The names of paths -/

namespace Path

/-- A path of names that stand for themselves. -/
def IsPlain (path : String) : Prop :=
  ∀ name ∈ names path, name ≠ "" ∧ name ≠ "." ∧ name ≠ ".."

instance (path : String) : Decidable (IsPlain path) :=
  inferInstanceAs (Decidable (∀ name ∈ names path, _))

theorem names_append (front back : String) :
    names (front ++ "/" ++ back) = names front ++ names back := by
  have hsplit := @List.splitOnP_append_cons Char (· == '/') front.toList back.toList '/' rfl
  have htext : (front ++ "/" ++ back).toList = front.toList ++ '/' :: back.toList := by
    simp [String.toList_append]
  unfold names
  rw [htext, ← List.map_append]
  exact congrArg (List.map String.ofList) hsplit

/-- What a directory adds to a path stands before it. -/
theorem exists_join_eq (directory path : String) : ∃ lead, join directory path = lead ++ path := by
  unfold join
  split
  · exact ⟨"", String.empty_append.symm⟩
  · split
    · exact ⟨directory, rfl⟩
    · exact ⟨directory ++ "/", rfl⟩

theorem names_ne_nil (path : String) : names path ≠ [] := by
  unfold names
  rw [ne_eq, List.map_eq_nil_iff]
  exact List.splitOnP_ne_nil _ _

/-- The names of what lies below a path begin with the names of the path. -/
theorem exists_names_of_isPrefixOf {path other : String}
    (h : (path ++ "/").toList.isPrefixOf other.toList = true) :
    ∃ rest, rest ≠ [] ∧ names other = names path ++ rest := by
  obtain ⟨rest, hrest⟩ := List.isPrefixOf_iff_prefix.mp h
  have hother : other = path ++ "/" ++ String.ofList rest := by
    rw [← String.toList_inj, ← hrest]
    simp [String.toList_append]
  exact ⟨names (String.ofList rest), names_ne_nil _, by rw [hother, names_append]⟩

/-- What a directory adds to a path stands before its names. A slash at the end of the directory makes an
empty name there, which is not added. -/
theorem exists_names_join {directory path : String} (hdirectory : directory ≠ "")
    (hrelative : isAbsolute path = false) :
    ∃ front : String, names (join directory path) = names front ++ names path ∧
      (names directory = names front ∨ names directory = names front ++ [""]) := by
  unfold join
  simp only [hrelative, Bool.false_or, beq_iff_eq, hdirectory, ↓reduceIte]
  by_cases hslash : directory.toList.getLast? = some '/'
  · obtain ⟨front, hfront⟩ := List.getLast?_eq_some_iff.mp hslash
    have hdirectory : directory = String.ofList front ++ "/" ++ "" := by
      rw [← String.toList_inj, hfront]
      simp [String.toList_append]
    have hpath : directory ++ path = String.ofList front ++ "/" ++ path := by
      rw [hdirectory, String.append_empty]
    refine ⟨String.ofList front, ?_, .inr ?_⟩
    · rw [if_pos hslash, hpath, names_append]
    · rw [hdirectory, names_append]
      rfl
  · rw [if_neg hslash]
    exact ⟨directory, names_append directory path, .inl rfl⟩

theorem IsPlain.not_isAbsolute {path : String} (h : IsPlain path) : isAbsolute path = false := by
  unfold isAbsolute
  cases hpath : path.toList with
  | nil => rfl
  | cons c rest =>
    by_cases hc : c = '/'
    · -- the name before a slash at the front is empty
      have hslash : path = "" ++ "/" ++ String.ofList rest := by
        rw [← String.toList_inj, hpath, hc]
        simp [String.toList_append]
      have hempty : "" ∈ names path := by
        rw [hslash, names_append]
        exact List.mem_append_left _ (by decide)
      exact absurd rfl (h "" hempty).1
    · simp [hc]

end Path

namespace FileTree

variable {t t' : FileTree}

/-! ## Trees -/

/-- Whatever lies somewhere lies in a directory. -/
def IsTree (t : FileTree) : Prop :=
  ∀ loc node, t.node? loc = some node → loc ≠ [] → t.node? loc.dropLast = some .directory

theorem isTree_of_nodes
    (h : ∀ entry ∈ t.nodes, t.node? entry.1.dropLast = some .directory) : t.IsTree := by
  intro loc node hnode hloc
  unfold node? at hnode
  rw [if_neg hloc] at hnode
  obtain ⟨_, _, hnodes, -⟩ := List.lookup_eq_some_iff.mp hnode
  exact h (loc, node) (by simp [hnodes])

theorem SameShape.isTree (h : SameShape t t') (htree : t.IsTree) : t'.IsTree := by
  intro loc node hnode hloc
  obtain ⟨old, hold⟩ : ∃ old, t.node? loc = some old := by
    rcases h loc with heq | ⟨content, content', mode, hold, -⟩
    · exact ⟨node, heq.symm.trans hnode⟩
    · exact ⟨_, hold⟩
  exact (h.directory_iff _).mpr (htree loc old hold hloc)

/-- What something lies below is a directory. -/
theorem IsTree.directory_of_append (h : t.IsTree) {loc rest : Location} {node : FileNode}
    (hrest : rest ≠ []) (hnode : t.node? (loc ++ rest) = some node) :
    t.node? loc = some .directory := by
  induction rest using List.reverseRecOn generalizing node with
  | nil => exact absurd rfl hrest
  | append_singleton rest name ih =>
    have hparent := h _ node hnode (by simp)
    rw [← List.append_assoc, List.dropLast_concat] at hparent
    by_cases hnil : rest = []
    · rw [hnil, List.append_nil] at hparent
      exact hparent
    · exact ih hnil hparent

/-- Whether a file or a link lies at a path below a directory. -/
def HasFile (t : FileTree) (workdir : Location) (path : String) : Prop :=
  ∃ node, t.node? (workdir ++ Path.names path) = some node ∧ node ≠ .directory

/-- No file lies below another one. -/
theorem IsTree.not_isPrefixOf (h : t.IsTree) {workdir : Location} {path other : String}
    (hpath : t.HasFile workdir path) (hother : t.HasFile workdir other) :
    (path ++ "/").toList.isPrefixOf other.toList = false := by
  rw [← Bool.not_eq_true]
  intro hbelow
  obtain ⟨rest, hrest, hnames⟩ := Path.exists_names_of_isPrefixOf hbelow
  obtain ⟨node, hpath, hnode⟩ := hpath
  obtain ⟨other, hother, -⟩ := hother
  rw [hnames, ← List.append_assoc] at hother
  exact hnode (Option.some.inj (hpath.symm.trans (h.directory_of_append hrest hother)))

theorem SameShape.hasFile (h : SameShape t t') {workdir : Location} {path : String}
    (hfile : t.HasFile workdir path) : t'.HasFile workdir path := by
  obtain ⟨node, hnode, hne⟩ := hfile
  rcases h (workdir ++ Path.names path) with heq | ⟨_, content, mode, -, hnew⟩
  · exact ⟨node, heq.trans hnode, hne⟩
  · exact ⟨.file content mode, hnew, by simp⟩

/-! ## Ways -/

/-- The ways on which names are followed from a location, along no more than a number of links. -/
inductive Leads (t : FileTree) : Nat → Location → List String → Location → Prop where
  | here (links : Nat) (loc : Location) : Leads t links loc [] loc
  | down {links : Nat} {loc l next : Location} {name : String} {rest : List String}
      (hdirectory : t.node? loc = some .directory) (hstep : step loc name = .ok l)
      (hlink : ∀ target, t.node? l ≠ some (.link target)) (hrest : Leads t links l rest next) :
      Leads t links loc (name :: rest) next
  | along {links : Nat} {loc l next : Location} {name target : String} {rest : List String}
      (hdirectory : t.node? loc = some .directory) (hstep : step loc name = .ok l)
      (hlink : t.node? l = some (.link target))
      (htarget : ¬ (target = "" ∨ Path.isAbsolute target = true))
      (hrest : Leads t links loc (Path.names target ++ rest) next) :
      Leads t (links + 1) loc (name :: rest) next

section

variable {links : Nat} {loc l next : Location} {name target : String} {names rest : List String}

theorem walk_nil (t : FileTree) (links : Nat) (loc : Location) : t.walk links loc [] = .ok loc := by
  cases links <;> rfl

theorem walkWith_cons_of_not_link
    {along : Location → String → List String → Except SystemError Location}
    (hdirectory : t.node? loc = some .directory) (hstep : step loc name = .ok l)
    (hlink : ∀ target, t.node? l ≠ some (.link target)) :
    t.walkWith along loc (name :: rest) = t.walkWith along l rest := by
  simp only [walkWith, hdirectory, hstep]

theorem walkWith_cons_of_link
    {along : Location → String → List String → Except SystemError Location}
    (hdirectory : t.node? loc = some .directory) (hstep : step loc name = .ok l)
    (hlink : t.node? l = some (.link target)) :
    t.walkWith along loc (name :: rest) = along loc target rest := by
  simp only [walkWith, hdirectory, hstep, hlink]

/-- What the first of some names does. -/
theorem exists_of_walkWith_cons
    {along : Location → String → List String → Except SystemError Location}
    (h : t.walkWith along loc (name :: rest) = .ok next) :
    t.node? loc = some .directory ∧ ∃ l, step loc name = .ok l := by
  rw [walkWith] at h
  split at h
  · exact absurd h (by simp)
  · next hdirectory =>
    split at h
    · next l hstep => exact ⟨hdirectory, l, hstep⟩
    · exact absurd h (by simp)
  · exact absurd h (by simp)

/-- A walk is on one of the ways, if links are followed on one of them. -/
theorem leads_of_walkWith
    {along : Location → String → List String → Except SystemError Location}
    (halong : ∀ {loc l name target rest}, t.node? loc = some .directory → step loc name = .ok l →
      t.node? l = some (.link target) → along loc target rest = .ok next →
        t.Leads links loc (name :: rest) next)
    (h : t.walkWith along loc names = .ok next) : t.Leads links loc names next := by
  induction names generalizing loc with
  | nil =>
    obtain rfl := Except.ok.inj h
    exact .here links loc
  | cons name rest ih =>
    obtain ⟨hdirectory, l, hstep⟩ := exists_of_walkWith_cons h
    by_cases hlink : ∃ target, t.node? l = some (.link target)
    · obtain ⟨target, hlink⟩ := hlink
      rw [walkWith_cons_of_link hdirectory hstep hlink] at h
      exact halong hdirectory hstep hlink h
    · have hlink : ∀ target, t.node? l ≠ some (.link target) :=
        fun target htarget => hlink ⟨target, htarget⟩
      rw [walkWith_cons_of_not_link hdirectory hstep hlink] at h
      exact .down hdirectory hstep hlink (ih h)

/-- **A walk** ends where one of the ways does. -/
theorem walk_eq_ok_iff : t.walk links loc names = .ok next ↔ t.Leads links loc names next := by
  constructor
  · intro h
    induction links generalizing loc names with
    | zero =>
      rw [walk] at h
      refine leads_of_walkWith ?_ h
      intro _ _ _ _ _ _ _ _ herror
      exact absurd herror nofun
    | succ links ih =>
      rw [walk] at h
      refine leads_of_walkWith (fun hdirectory hstep hlink h => ?_) h
      split at h
      · exact absurd h nofun
      · next htarget => exact .along hdirectory hstep hlink htarget (ih h)
  · intro h
    induction h with
    | here links loc => exact walk_nil t links loc
    | @down links _ _ _ _ _ hdirectory hstep hlink _ ih =>
      rw [← ih]
      cases links <;> exact walkWith_cons_of_not_link hdirectory hstep hlink
    | along hdirectory hstep hlink htarget _ ih =>
      rw [walk, walkWith_cons_of_link hdirectory hstep hlink, if_neg htarget]
      exact ih

namespace Leads

/-- A way is still one where more links may be followed. -/
theorem mono {links' : Nat} (h : t.Leads links loc names next) (hle : links ≤ links') :
    t.Leads links' loc names next := by
  induction h generalizing links' with
  | here links loc => exact .here links' loc
  | down hdirectory hstep hlink _ ih => exact .down hdirectory hstep hlink (ih hle)
  | along hdirectory hstep hlink htarget _ ih =>
    obtain ⟨links', rfl⟩ : ∃ n, links' = n + 1 := ⟨links' - 1, by omega⟩
    exact .along hdirectory hstep hlink htarget (ih (by omega))

/-- All ways of the same names end in one place. -/
theorem unique {links' : Nat} {next' : Location} (h : t.Leads links loc names next)
    (h' : t.Leads links' loc names next') : next' = next := by
  have hwalk := walk_eq_ok_iff.mpr (h.mono (Nat.le_max_left links links'))
  have hwalk' := walk_eq_ok_iff.mpr (h'.mono (Nat.le_max_right links links'))
  exact Except.ok.inj (hwalk'.symm.trans hwalk)

/-- **The way of all names** goes on where the way of the first ones ends. -/
theorem exists_of_append {front back : List String} (h : t.Leads links loc (front ++ back) next) :
    ∃ mid, t.Leads links loc front mid ∧ t.Leads links mid back next := by
  generalize hnames : front ++ back = names at h
  induction h generalizing front with
  | here links loc =>
    obtain ⟨rfl, rfl⟩ := List.append_eq_nil_iff.mp hnames
    exact ⟨loc, .here links loc, .here links loc⟩
  | @down links loc l next name rest hdirectory hstep hlink hrest ih =>
    cases front with
    | nil =>
      obtain rfl : back = name :: rest := hnames
      exact ⟨loc, .here links loc, .down hdirectory hstep hlink hrest⟩
    | cons first front =>
      obtain ⟨rfl, htail⟩ := List.cons.inj hnames
      obtain ⟨mid, hfront, hback⟩ := ih htail
      exact ⟨mid, .down hdirectory hstep hlink hfront, hback⟩
  | @along links loc l next name target rest hdirectory hstep hlink htarget hrest ih =>
    cases front with
    | nil =>
      obtain rfl : back = name :: rest := hnames
      exact ⟨loc, .here _ loc, .along hdirectory hstep hlink htarget hrest⟩
    | cons first front =>
      obtain ⟨rfl, rfl⟩ := List.cons.inj hnames
      -- the names of the target are followed before those that are left
      obtain ⟨mid, hfront, hback⟩ := ih (List.append_assoc _ _ _)
      exact ⟨mid, .along hdirectory hstep hlink htarget hfront, hback.mono (Nat.le_succ links)⟩

/-- An empty name leads nowhere else. -/
theorem of_append_empty (h : t.Leads links loc (names ++ [""]) next) :
    t.Leads links loc names next := by
  obtain ⟨mid, hnames, hempty⟩ := h.exists_of_append
  cases hempty with
  | down hdirectory hstep _ hrest =>
    obtain rfl := Except.ok.inj hstep
    cases hrest with
    | here => exact hnames
  | along hdirectory hstep hlink =>
    obtain rfl := Except.ok.inj hstep
    exact absurd (hdirectory.symm.trans hlink) nofun

end Leads

/-! ## Where plain paths lead -/

/-- Whether a link lies at a location. -/
def IsLink (t : FileTree) (loc : Location) : Prop :=
  ∃ target, t.node? loc = some (.link target)

instance (t : FileTree) (loc : Location) : Decidable (t.IsLink loc) :=
  match h : t.node? loc with
  | some (.link target) => isTrue ⟨target, h⟩
  | some (.file ..) => isFalse fun ⟨_, hlink⟩ => absurd (h.symm.trans hlink) nofun
  | some .directory => isFalse fun ⟨_, hlink⟩ => absurd (h.symm.trans hlink) nofun
  | none => isFalse fun ⟨_, hlink⟩ => absurd (h.symm.trans hlink) nofun

/-- A name that stands for itself leads down. -/
theorem eq_append_of_step (hplain : name ≠ "" ∧ name ≠ "." ∧ name ≠ "..")
    (h : step loc name = .ok l) : l = loc ++ [name] := by
  obtain ⟨hempty, hdot, hdots⟩ := hplain
  unfold step at h
  rw [if_neg (not_or.mpr ⟨hempty, hdot⟩), if_neg hdots] at h
  split at h
  · exact absurd h nofun
  · exact (Except.ok.inj h).symm

/-- **Plain names** lead down where no link is on the way. -/
theorem Leads.eq_append (h : t.Leads links loc names next)
    (hplain : ∀ name ∈ names, name ≠ "" ∧ name ≠ "." ∧ name ≠ "..")
    (hlinks : ∀ front, front <+: names → ¬ t.IsLink (loc ++ front)) : next = loc ++ names := by
  induction h with
  | here links loc => exact (List.append_nil loc).symm
  | @down links loc l next name rest hdirectory hstep hlink hrest ih =>
    obtain rfl := eq_append_of_step (hplain name List.mem_cons_self) hstep
    rw [ih (fun n hn => hplain n (List.mem_cons_of_mem _ hn)), List.append_assoc,
      List.singleton_append]
    intro front hfront
    rw [List.append_assoc, List.singleton_append]
    exact hlinks (name :: front) (List.cons_prefix_cons.mpr ⟨rfl, hfront⟩)
  | @along links loc l next name target rest hdirectory hstep hlink htarget hrest ih =>
    obtain rfl := eq_append_of_step (hplain name List.mem_cons_self) hstep
    exact absurd ⟨target, hlink⟩ (hlinks [name] ⟨rest, rfl⟩)

/-- A path with no links on its way below a directory. There may be one at its end. -/
def IsDirect (t : FileTree) (workdir : Location) (path : String) : Prop :=
  ∀ n < (Path.names path).length, ¬ t.IsLink (workdir ++ (Path.names path).take n)

instance (t : FileTree) (workdir : Location) (path : String) : Decidable (t.IsDirect workdir path) :=
  inferInstanceAs (Decidable (∀ n < (Path.names path).length, _))

theorem IsDirect.not_isLink {workdir : Location} {path : String} (h : t.IsDirect workdir path)
    {front : List String} (hfront : front <+: Path.names path)
    (hlength : front.length < (Path.names path).length) : ¬ t.IsLink (workdir ++ front) := by
  rw [List.prefix_iff_eq_take.mp hfront]
  exact h front.length hlength

end

theorem leads_of_resolve {path : String} {loc : Location} (h : t.resolve path = .ok loc) :
    t.Leads maxLinks [] (Path.names path) loc := by
  unfold resolve resolveFrom at h
  split at h
  · exact absurd h nofun
  · split at h
    · exact absurd h nofun
    · split at h
      · exact absurd h nofun
      · exact walk_eq_ok_iff.mp h

/-- **A path in a project** is followed from where the project lies. -/
theorem leads_of_resolve_join {root path : String} {workdir loc : Location}
    (hroot : t.resolve (if root = "" then "." else root) = .ok workdir)
    (hrelative : Path.isAbsolute path = false) (h : t.resolve (Path.join root path) = .ok loc) :
    t.Leads maxLinks workdir (Path.names path) loc := by
  have hway := leads_of_resolve h
  by_cases hempty : root = ""
  · -- the project lies where all paths start
    rw [if_pos hempty] at hroot
    have hworkdir : workdir = [] := (Except.ok.inj hroot).symm
    have hjoin : Path.join root path = path := by
      unfold Path.join
      simp [hempty]
    rw [hworkdir, ← hjoin]
    exact hway
  · rw [if_neg hempty] at hroot
    obtain ⟨front, hjoin, hnames⟩ := Path.exists_names_join hempty hrelative
    have hworkdir : t.Leads maxLinks [] (Path.names front) workdir := by
      have hlead := leads_of_resolve hroot
      rcases hnames with hnames | hnames
      · rw [hnames] at hlead
        exact hlead
      · rw [hnames] at hlead
        exact hlead.of_append_empty
    rw [hjoin] at hway
    obtain ⟨mid, hmid, hrest⟩ := hway.exists_of_append
    rw [hworkdir.unique hmid] at hrest
    exact hrest

/-- **A plain path in a project** leads to the location that it spells below the project, if no link is
on its way. -/
theorem resolve_join {root path : String} {workdir loc : Location}
    (hroot : t.resolve (if root = "" then "." else root) = .ok workdir)
    (hplain : Path.IsPlain path) (hdirect : t.IsDirect workdir path)
    (hlink : ¬ t.IsLink (workdir ++ Path.names path))
    (h : t.resolve (Path.join root path) = .ok loc) : loc = workdir ++ Path.names path := by
  refine (leads_of_resolve_join hroot hplain.not_isAbsolute h).eq_append hplain fun front hfront => ?_
  by_cases hlength : front.length < (Path.names path).length
  · exact hdirect.not_isLink hfront hlength
  · -- all of the path
    rw [hfront.eq_of_length_le (by omega)]
    exact hlink

/-- The path of the project itself leads to a directory. -/
theorem directory_of_resolve_dot {root : String} {workdir loc : Location}
    (hroot : t.resolve (if root = "" then "." else root) = .ok workdir)
    (h : t.resolve (Path.join root ".") = .ok loc) : t.node? loc = some .directory := by
  have hway : t.Leads maxLinks workdir ["."] loc := leads_of_resolve_join hroot (by decide) h
  cases hway with
  | down hdirectory hstep _ hrest =>
    obtain rfl := Except.ok.inj hstep
    cases hrest with
    | here => exact hdirectory
  | along hdirectory hstep hlink =>
    obtain rfl := Except.ok.inj hstep
    exact absurd (hdirectory.symm.trans hlink) nofun

/-- A path that leads somewhere does not hold the character that ends paths. -/
theorem nul_not_mem_of_resolve_join {root path : String} {loc : Location}
    (h : t.resolve (Path.join root path) = .ok loc) : '\x00' ∉ path.toList := by
  obtain ⟨lead, hlead⟩ := Path.exists_join_eq root path
  intro hmem
  have hnul : (Path.join root path).toList.contains '\x00' = true := by
    rw [hlead, List.contains_iff_mem, String.toList_append]
    exact List.mem_append_right _ hmem
  unfold resolve resolveFrom at h
  rw [if_pos hnul] at h
  exact absurd h nofun

end FileTree

end TagVersion
