import TagVersion.Proofs.Release.Checks
import TagVersion.Proofs.Template.Parts
import TagVersion.Proofs.Version.Triplets
import TagVersion.Repository.Checkout

/-!
# Chains of releases

Each release starts from what is read off the tag of the one before. Where the main format shows
three numbers, and after them only what a release has not got yet, nothing is lost on the way: the
triplets of a chain are those of the bumps, and they go up.

* **`Strategy.numberedMain`**: these main formats.
* **`Strategy.bump_numbered`**: the text of a release is its triplet.
* **`Strategy.chain`**: releases one after the other.
* **`Strategy.exists_chain`**: a chain that stays in scope and in range gives the triplets of its bumps.
* **`Strategy.chain_ascends`**: no chain goes back, or comes to the same tag twice.
-/

namespace TagVersion

/-! ## Bumps one after the other -/

namespace Triplet

/-- The triplets of some bumps, each of them of the triplet before; nothing if one is refused. -/
def bumpAll? (t : Triplet) : List Component → Option (List Triplet)
  | [] => some []
  | c :: rest => do
    let next ← t.bump? c
    let later ← bumpAll? next rest
    return next :: later

variable {t : Triplet} {triplets : List Triplet}

/-- Bumps go up from each triplet to all that come after it. -/
theorem pairwise_of_bumpAll?_eq_some {components : List Component}
    (h : t.bumpAll? components = some triplets) : (t :: triplets).Pairwise (· < ·) := by
  rw [← List.isChain_iff_pairwise]
  induction components generalizing t triplets with
  | nil =>
    obtain rfl := Option.some.inj h
    exact .singleton t
  | cons c rest ih =>
    obtain ⟨next, hnext, h⟩ := Option.bind_eq_some_iff.mp h
    obtain ⟨later, hlater, h⟩ := Option.bind_eq_some_iff.mp h
    obtain rfl := Option.some.inj h
    exact List.isChain_cons_cons.mpr ⟨lt_of_bump?_eq_some hnext, ih hlater⟩

end Triplet

namespace Strategy

/-! ## Formats of three numbers -/

/-- The parts of a format of three numbers, the last of them of the given field, and of more fields
after them. -/
def numberedParts (last : VersionField) (suffixes : List VersionField) : List TemplatePart :=
  .placeholder "major" none :: .constant "." :: .placeholder "minor" none :: .constant "." ::
    (last :: suffixes).map fun f => .placeholder f.name none

/-- A format of three numbers and of more fields after them. -/
def numberedMain (last : VersionField) (suffixes : List VersionField) : String :=
  String.ofList (Template.source (numberedParts last suffixes))

example : numberedMain .patch [.post] = defaultMain := by decide

example : numberedMain .changes [] = changesMain := by decide

/-- The fields that say how far a checkout is from its tag. -/
def distanceFields : List VersionField := [.post, .dev, .devcommit]

section

variable {last f : VersionField} {suffixes : List VersionField} {env : Environment}

theorem isSpelled_placeholder (f : VersionField) :
    (TemplatePart.placeholder f.name none).IsSpelled := by
  refine ⟨?_, ?_, nofun⟩ <;> cases f <;> decide

theorem spelled_numberedParts (last : VersionField) (suffixes : List VersionField) :
    Template.Spelled (numberedParts last suffixes) := by
  have hpoint : (TemplatePart.constant ".").IsSpelled := ⟨by decide, by decide⟩
  constructor
  · intro p hp
    simp only [numberedParts, List.mem_cons, List.mem_map] at hp
    rcases hp with rfl | rfl | rfl | rfl | ⟨f, -, rfl⟩
    · exact isSpelled_placeholder .major
    · exact hpoint
    · exact isSpelled_placeholder .minor
    · exact hpoint
    · exact isSpelled_placeholder f
  · -- from the last number on there are placeholders only
    have hfields : ((last :: suffixes).map fun f => TemplatePart.placeholder f.name none).IsChain
        fun p q => p.isConstant = true → q.isConstant = false :=
      (List.isChain_map _).mpr (List.pairwise_of_forall fun _ _ => nofun).isChain
    unfold numberedParts
    simp only [List.map_cons, List.isChain_cons_cons] at hfields ⊢
    exact ⟨nofun, fun _ => rfl, nofun, fun _ => rfl, hfields⟩

theorem parts_numberedMain (last : VersionField) (suffixes : List VersionField) :
    Template.parts (numberedMain last suffixes) = numberedParts last suffixes := by
  have hread := Template.partsFrom_source (spelled_numberedParts last suffixes)
  unfold Template.parts numberedMain
  rw [String.toList_ofList]
  exact hread

theorem meaning_placeholder (f : VersionField) :
    (TemplatePart.placeholder f.name none).meaning = .field f := by
  cases f <;> decide

theorem render_placeholder (f : VersionField) (env : Environment) (v : VersionFacts) :
    (TemplatePart.placeholder f.name none).render env v = v.field? f := by
  unfold TemplatePart.render
  rw [meaning_placeholder]

/-- A release has no distance from its tag yet. -/
theorem field?_ofTriplet (hf : f ∈ distanceFields) (t : Triplet) :
    (VersionFacts.ofTriplet t).field? f = some "" := by
  simp only [distanceFields, List.mem_cons, List.not_mem_nil, or_false] at hf
  rcases hf with rfl | rfl | rfl <;> rfl

theorem join_map_empty (fields : List VersionField) :
    String.join (fields.map fun _ => "") = "" := by
  induction fields with
  | nil => rfl
  | cons f rest ih => rw [List.map_cons, String.join_cons, ih, String.append_empty]

end

section

variable {s : Strategy} {last : VersionField} {suffixes : List VersionField} {env : Environment}
  {t : Triplet} {c : Component}

theorem parts?_of_numbered (hmain : s.main = .template (numberedMain last suffixes)) :
    s.main.parts? = some (numberedParts last suffixes) := by
  rw [hmain, Format.parts?, parts_numberedMain]

/-- **A release** is shown as its triplet, if the last number is that of the triplet. -/
theorem render_numbered (hmain : s.main = .template (numberedMain last suffixes))
    (hsuffixes : ∀ f ∈ suffixes, f ∈ distanceFields)
    (hlast : (VersionFacts.ofTriplet t).field? last = some (Text.numeralText t.patch)) :
    s.render env (.ofTriplet t) false = t.text := by
  have hfields : (suffixes.map fun f => TemplatePart.placeholder f.name none).filterMap
      (·.render env (.ofTriplet t)) = suffixes.map fun _ => "" := by
    rw [List.filterMap_map, ← List.filterMap_eq_map]
    refine List.filterMap_congr fun f hf => ?_
    exact (render_placeholder f env _).trans (field?_ofTriplet (hsuffixes f hf) t)
  have hpieces : s.main.pieces env (.ofTriplet t) =
      Text.numeralText t.major :: "." :: Text.numeralText t.minor :: "." ::
        Text.numeralText t.patch :: suffixes.map fun _ => "" := by
    have hmajor : (TemplatePart.placeholder "major" none).render env (.ofTriplet t) =
        some (Text.numeralText (VersionFacts.ofTriplet t).triplet.major) :=
      render_placeholder .major env _
    have hminor : (TemplatePart.placeholder "minor" none).render env (.ofTriplet t) =
        some (Text.numeralText (VersionFacts.ofTriplet t).triplet.minor) :=
      render_placeholder .minor env _
    have hlast := (render_placeholder last env (.ofTriplet t)).trans hlast
    rw [VersionFacts.triplet_ofTriplet] at hmajor hminor
    have hpoint : (TemplatePart.constant ".").render env (.ofTriplet t) = some "." := rfl
    rw [hmain, Format.pieces, parts_numberedMain, numberedParts]
    simp only [List.filterMap_cons, List.map_cons, hmajor, hpoint, hminor, hlast, hfields]
  unfold render
  rw [hpieces]
  simp only [Bool.false_and, Bool.false_eq_true, ↓reduceIte, List.append_nil, String.join_cons,
    join_map_empty, String.append_empty]
  apply String.toList_inj.mp
  simp [Triplet.text, Triplet.chars, Text.numeralText]

/-- The last number is not bumped where it counts changes. -/
theorem ne_patch_of_inScope (hsuffixes : ∀ f ∈ suffixes, f ∈ distanceFields)
    (h : inScope (numberedParts .changes suffixes) c = true) : c ≠ .patch := by
  obtain ⟨p, hp, hc⟩ := Versioning.inScope_eq_true_iff.mp h
  have hfield : ∀ f : VersionField,
      ((TemplatePart.placeholder f.name none).field?.bind (·.component?)) = f.component? := by
    intro f
    unfold TemplatePart.field?
    rw [meaning_placeholder]
    rfl
  rintro rfl
  simp only [numberedParts, List.mem_cons, List.mem_map] at hp
  rcases hp with rfl | rfl | rfl | rfl | ⟨f, hf, rfl⟩
  · exact absurd hc (by decide)
  · exact absurd hc (by decide)
  · exact absurd hc (by decide)
  · exact absurd hc (by decide)
  · rw [hfield] at hc
    -- neither changes nor a distance are bumped
    have hf : f ∈ VersionField.changes :: distanceFields :=
      hf.elim (fun h => h ▸ List.mem_cons_self) fun h => List.mem_cons_of_mem _ (hsuffixes f h)
    simp only [distanceFields, List.mem_cons, List.not_mem_nil, or_false] at hf
    rcases hf with rfl | rfl | rfl | rfl <;> exact absurd hc nofun

/-- **The text of a release** is its triplet. -/
theorem bump_numbered {facts : VersionFacts} {next : Triplet}
    (hmain : s.main = .template (numberedMain last suffixes))
    (hlast : last = .patch ∨ last = .changes) (hsuffixes : ∀ f ∈ suffixes, f ∈ distanceFields)
    (hscope : s.main.parts?.any (inScope · c) = true) (hnext : facts.triplet.bump? c = some next) :
    s.bump env c facts = .ok next.text := by
  have hparts := parts?_of_numbered hmain
  rw [hparts] at hscope
  have hscope : inScope (numberedParts last suffixes) c = true := hscope
  have htext : s.render env (.ofTriplet next) false = next.text := by
    refine render_numbered hmain hsuffixes ?_
    rcases hlast with rfl | rfl
    · show some (Text.numeralText (VersionFacts.ofTriplet next).triplet.patch) = _
      rw [VersionFacts.triplet_ofTriplet]
    · -- a release has no changes, and its patch number is cleared
      rw [Triplet.patch_of_bump?_eq_some hnext (ne_patch_of_inScope hsuffixes hscope)]
      rfl
  rw [Versioning.bump_cases, hparts]
  simp only
  rw [if_pos (Versioning.inScope_eq_true_iff.mp hscope), hnext]
  simp only
  rw [htext]

end

/-! ## Chains -/

/-- A release of a chain: what it bumps, and what is read of the checkout from which the next one
starts. -/
structure Link where
  environment : Environment
  component : Component
  distance : UInt64
  commitId : Option String
  dirty : Bool

/-- What is read some commits after the release of a version. -/
def Link.facts (l : Link) (version : String) : VersionFacts :=
  VersionFacts.ofTag (Checkout.releaseTag version).toList l.distance l.commitId l.dirty

/-- The version texts of a chain of releases, each with the facts from which the next one starts. -/
def chain (s : Strategy) (current : VersionFacts) :
    List Link → Except Error (List (String × VersionFacts))
  | [] => .ok []
  | l :: rest => do
    let version ← s.bump l.environment l.component current
    let later ← chain s (l.facts version) rest
    return (version, l.facts version) :: later

section

variable {s : Strategy} {last : VersionField} {suffixes : List VersionField}
  {current : VersionFacts} {links : List Link} {triplets : List Triplet}

/-- What is read after the release of a triplet has this triplet. -/
theorem triplet_facts (l : Link) (t : Triplet) : (l.facts t.text).triplet = t := by
  have htag : (Checkout.releaseTag t.text).toList = 'v' :: t.chars := by
    unfold Checkout.releaseTag Triplet.text
    simp
  unfold Link.facts
  rw [htag, VersionFacts.triplet_ofTag]

/-- **A chain** that stays in scope and in range releases the triplets of its bumps. -/
theorem exists_chain (hmain : s.main = .template (numberedMain last suffixes))
    (hlast : last = .patch ∨ last = .changes) (hsuffixes : ∀ f ∈ suffixes, f ∈ distanceFields)
    (hscope : ∀ l ∈ links, s.main.parts?.any (inScope · l.component) = true)
    (hbumps : current.triplet.bumpAll? (links.map (·.component)) = some triplets) :
    ∃ releases, s.chain current links = .ok releases ∧
      releases.map (·.1) = triplets.map (·.text) ∧ releases.map (·.2.triplet) = triplets := by
  induction links generalizing current triplets with
  | nil =>
    obtain rfl := Option.some.inj hbumps
    exact ⟨[], rfl, rfl, rfl⟩
  | cons l rest ih =>
    obtain ⟨next, hnext, hbumps⟩ := Option.bind_eq_some_iff.mp hbumps
    obtain ⟨later, hlater, hbumps⟩ := Option.bind_eq_some_iff.mp hbumps
    obtain rfl := Option.some.inj hbumps
    have hbump : s.bump l.environment l.component current = .ok next.text :=
      bump_numbered hmain hlast hsuffixes (hscope l List.mem_cons_self) hnext
    -- the rest of the chain starts from the triplet that was released
    have hfacts := triplet_facts l next
    obtain ⟨releases, hchain, htexts, htriplets⟩ := @ih (l.facts next.text) later
      (fun l' hl' => hscope l' (List.mem_cons_of_mem _ hl')) (hfacts.symm ▸ hlater)
    refine ⟨(next.text, l.facts next.text) :: releases, ?_, ?_, ?_⟩
    · rw [chain, hbump]
      show (chain s (l.facts next.text) rest >>= fun later => _) = _
      rw [hchain]
      rfl
    · rw [List.map_cons, List.map_cons, htexts]
    · rw [List.map_cons, htriplets, hfacts]

end

/-- **No chain goes back.** With a main format of three numbers, of which the last may count changes,
and of any fields after them that are empty on a release, a chain of releases that stays in scope and
in range succeeds. What is read between the releases has the triplets of the bumps, which go up, and
no two releases have one tag. -/
theorem chain_ascends (s : Strategy) {last : VersionField} {suffixes : List VersionField}
    (hmain : s.main = .template (numberedMain last suffixes))
    (hlast : last = .patch ∨ last = .changes)
    (hsuffixes : ∀ f ∈ suffixes, f ∈ [VersionField.post, .dev, .devcommit])
    (current : VersionFacts) {links : List Link} {triplets : List Triplet}
    (hscope : ∀ l ∈ links, s.main.parts?.any (inScope · l.component) = true)
    (hbumps : current.triplet.bumpAll? (links.map (·.component)) = some triplets) :
    ∃ releases, s.chain current links = .ok releases ∧
      releases.map (·.2.triplet) = triplets ∧
      (current.triplet :: triplets).Pairwise (· < ·) ∧
      (releases.map fun release => Checkout.releaseTag release.1).Nodup := by
  obtain ⟨releases, hchain, htexts, htriplets⟩ := exists_chain hmain hlast hsuffixes hscope hbumps
  have hascending := Triplet.pairwise_of_bumpAll?_eq_some hbumps
  refine ⟨releases, hchain, htriplets, hascending, ?_⟩
  -- different triplets have different texts
  have hnodup : triplets.Nodup :=
    (List.pairwise_cons.mp hascending).2.imp fun h => Triplet.ne_of_lt h
  have htags : (releases.map fun release => Checkout.releaseTag release.1) =
      triplets.map fun t => Checkout.releaseTag t.text := by
    have h := congrArg (List.map Checkout.releaseTag) htexts
    rwa [List.map_map, List.map_map] at h
  rw [htags]
  refine hnodup.map fun t u h => Triplet.text_injective ?_
  exact String.append_right_inj "v" |>.mp h

/-! ### A chain up to the greatest word -/

namespace Long

/-- A checkout whose patch number is the greatest but one. -/
def start : VersionFacts :=
  VersionFacts.ofTag "V18446744073709551614.0.18446744073709551614".toList 4 none true

/-- Each component is bumped once; the checkouts in between are some commits on, or dirty. -/
def links : List Link :=
  [⟨[], .patch, 0, none, true⟩, ⟨[("CI", "1")], .minor, 12, some "gabc1234", false⟩,
    ⟨[], .major, 18446744073709551615, some "g0", true⟩]

def triplets : List Triplet :=
  [⟨18446744073709551614, 0, 18446744073709551615⟩, ⟨18446744073709551614, 1, 0⟩,
    ⟨18446744073709551615, 0, 0⟩]

end Long

open Long in
theorem chain_ascends_long :
    (ofText "tag").main = .template (numberedMain .patch [.post]) ∧
      (∀ l ∈ links, (ofText "tag").main.parts?.any (inScope · l.component) = true) ∧
      start.triplet.bumpAll? (links.map (·.component)) = some triplets ∧
      ∃ releases, (ofText "tag").chain start links = .ok releases ∧
        releases.map (·.2.triplet) = triplets ∧
        (releases.map fun release => Checkout.releaseTag release.1).Nodup := by
  have hmain : (ofText "tag").main = .template (numberedMain .patch [.post]) := by
    show Format.template defaultMain = _
    exact congrArg Format.template (by decide)
  have hscope : ∀ l ∈ links, (ofText "tag").main.parts?.any (inScope · l.component) = true := by
    rw [parts?_of_numbered hmain]
    decide
  have hbumps : start.triplet.bumpAll? (links.map (·.component)) = some triplets := by
    decide +kernel
  obtain ⟨releases, hchain, htriplets, -, htags⟩ :=
    chain_ascends (ofText "tag") hmain (.inl rfl) (by decide) start hscope hbumps
  exact ⟨hmain, hscope, hbumps, releases, hchain, htriplets, htags⟩

end Strategy

end TagVersion
