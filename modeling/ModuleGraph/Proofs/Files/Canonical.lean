import Mathlib.Data.List.Induction
import ModuleGraph.Files.Canonical
import ModuleGraph.Proofs.Files.Reaching
import ModuleGraph.Proofs.Path.Chain

/-!
# Canonical forms lead to the same file

The canonical form of a path is worked out on texts.  That is safe as long as no link leads to a
directory: then all directories on the way are passed without links, so working `..` off a text and
going up in the tree come to the same, and only the last name can be a link.  In such a tree the
canonical form of a path that leads to a file is the text of a place, and leads to the same file.

## Main definitions

* `Path.trail`: the segments of an absolute path behind the root, without those that mean nothing.
* `Files.goTo`: a component worked into a place.

## Main results

* `Files.Disk.reaches_trail_of_follow`: what a path leads to is reached along its trail.
* `Files.Disk.exists_place_of_canonical`: the canonical form of a path to a file leads to the file.
-/

namespace ModuleGraph

/-! ### Trails -/

namespace Path

/-- The segment that a component is written as. -/
def Component.segment (c : Component) : String := String.ofList c.chars

@[simp] theorem Component.segment_name (text : String) : (Component.name text).segment = text := by
  simp [Component.segment, Component.chars]

@[simp] theorem Component.segment_up : Component.up.segment = ".." := rfl

/-- The segments of an absolute path behind the root, without those that mean nothing. -/
def trail (p : Path) : List String := p.components.tail.map Component.segment

theorem Component.segment_of_ofSegment? {s : List Char} {c : Component}
    (h : Component.ofSegment? s = some c) : c.segment = String.ofList s := by
  unfold Component.ofSegment? at h
  split_ifs at h with hvoid hup
  · obtain rfl := Option.some.inj h
    rw [show s = ['.', '.'] by simpa using hup]
    rfl
  · obtain rfl := Option.some.inj h
    exact Component.segment_name _

private theorem filter_map_ofList (segments : List (List Char)) :
    ((segments.filter fun s => !s.isEmpty).map String.ofList).filter (· ≠ ".") =
      (segments.filterMap Component.ofSegment?).map Component.segment := by
  induction segments with
  | nil => rfl
  | cons s segments ih =>
    cases hc : Component.ofSegment? s with
    | none =>
      rw [List.filterMap_cons_none hc, ← ih]
      rcases isVoid_iff.mp (Component.ofSegment?_eq_none_iff.mp hc) with rfl | rfl
      · rfl
      · rfl
    | some c =>
      have hvoid : ¬ (s = [] ∨ s = ['.']) := by
        rw [← isVoid_iff, ← Component.ofSegment?_eq_none_iff, hc]
        simp
      have hdot : String.ofList s ≠ "." := fun h =>
        hvoid (.inr (by simpa using congrArg String.toList h))
      rw [List.filterMap_cons_some hc, List.map_cons, Component.segment_of_ofSegment? hc, ← ih,
        List.filter_cons_of_pos (by simpa using fun h => hvoid (.inl h)), List.map_cons,
        List.filter_cons_of_pos (by simpa using hdot)]

/-- The segments of a text that mean something are those of its components. -/
theorem filter_segmentsOf (cs : List Char) :
    (Files.segmentsOf cs).filter (· ≠ ".") = (body cs).map Component.segment := by
  rw [Files.segmentsOf]
  split_ifs
  · rw [List.map_append, List.filter_append, filter_map_ofList]
    exact List.append_nil _
  · exact filter_map_ofList _

theorem components_tail {p : Path} (hp : p.isAbsolute = true) :
    p.components.tail = body p.text.toList := by
  obtain ⟨cs, rfl⟩ := isAbsolute_iff.mp hp
  rw [components_slash, List.tail_cons, String.toList_ofList, body_slash]

/-- The trail of an absolute path are the segments of its text that mean something. -/
theorem trail_eq {p : Path} (hp : p.isAbsolute = true) :
    p.trail = (Files.segmentsOf p.text.toList).filter (· ≠ ".") := by
  rw [trail, components_tail hp, filter_segmentsOf]

theorem trail_of_components {p q : Path} {c : Component} (hq : q.isAbsolute = true)
    (h : p.components = q.components ++ [c]) : p.trail = q.trail ++ [c.segment] := by
  obtain ⟨cs, rfl⟩ := isAbsolute_iff.mp hq
  rw [trail, h, trail, components_slash]
  simp

/-- The path above one that has a single name is the root. -/
theorem parent?_eq_root {p q : Path} (hp : p.isAbsolute = true) (h : p.parent? = some q)
    (hq : q.components = [.root]) : q = ⟨"/"⟩ := by
  obtain ⟨cs, rfl⟩ := isAbsolute_iff.mp hp
  obtain ⟨⟨above, c⟩, hsplit, rfl⟩ := Option.map_eq_some_iff.mp h
  rw [String.toList_ofList] at hsplit
  cases hdrop : (splitSlash cs).reverse.dropWhile isVoid with
  | nil => simp [splitLast?, splitLead, hdrop] at hsplit
  | cons segment before =>
    obtain ⟨rfl, -⟩ : above = '/' :: joinSlash (before.dropWhile isVoid).reverse ∧
        c = (Component.ofSegment? segment).getD .here := by
      simpa [splitLast?, splitLead, hdrop, eq_comm, Component.chars] using hsplit
    rw [components_slash, List.cons.injEq] at hq
    have hslash : ∀ s ∈ (before.dropWhile isVoid).reverse, '/' ∉ s := by
      intro s hs
      have hmem : s ∈ (splitSlash cs).reverse.dropWhile isVoid := by
        rw [hdrop]
        exact List.mem_cons_of_mem _ ((List.dropWhile_sublist _).subset (List.mem_reverse.mp hs))
      exact slash_notMem_of_mem_splitSlash
        (List.mem_reverse.mp ((List.dropWhile_sublist _).subset hmem))
    cases hbefore : before.dropWhile isVoid with
    | nil => rfl
    | cons last more =>
      -- A segment that means something would have left a component.
      have hlast : isVoid last = false := by
        have hhead := List.head?_dropWhile_not isVoid before
        simpa [hbefore] using hhead
      rw [hbefore] at hq hslash
      rw [body, splitSlash_joinSlash (by simp) hslash, List.filterMap_eq_nil_iff] at hq
      have hnone := hq.2 last (by simp)
      rw [Component.ofSegment?_eq_none_iff, hlast] at hnone
      cases hnone

end Path

/-- A component whose segment leads to an entry is the name of the entry. -/
theorem Path.Component.IsProper.eq_name_of_segment {c : Path.Component} (hc : c.IsProper)
    {name : String} (h : c.segment = name) (hname : Files.GoesDown name) : c = .name name := by
  cases c with
  | name text => rw [← h, Path.Component.segment_name]
  | up => exact absurd h.symm hname.notUp
  | root | here => exact hc.elim

namespace Files

/-! ### Places and their texts -/

/-- A component worked into a place. -/
def goTo (place : Place) : Path.Component → Place
  | .name text => place ++ [text]
  | .up => place.dropLast
  | .root | .here => place

namespace Disk

variable {d : Disk} {place r : Place} {p q : Path}

theorem components_pathOf (h : ∀ name ∈ place, isName name = true) :
    (pathOf place).components = .root :: place.map .name :=
  Path.components_ofComponents_root (isProper_of_forall_isName h)

/-- A name behind the path of a place. -/
theorem join_pathOf (place : Place) (name : String) :
    (pathOf place).join name = pathOf (place ++ [name]) := by
  simp [pathOf, Path.join, Path.ofComponents, Path.Component.chars]

theorem isAbsolute_pathOf (place : Place) : (pathOf place).isAbsolute = true := by
  induction place using List.reverseRecOn with
  | nil => rfl
  | append_singleton place name ih =>
    rw [← join_pathOf]
    exact Path.isAbsolute_join ih name

theorem trail_pathOf (h : ∀ name ∈ place, isName name = true) : (pathOf place).trail = place := by
  rw [Path.trail, components_pathOf h, List.tail_cons, List.map_map]
  exact List.map_id'' (fun name => Path.Component.segment_name name) place

theorem toList_pathOf (h : ∀ name ∈ place, isName name = true) :
    (pathOf place).text.toList = '/' :: Path.joinSlash (place.map String.toList) := by
  rw [pathOf, Path.ofComponents_root_eq_joinSlash (isProper_of_forall_isName h),
    String.toList_ofList, List.map_map]
  rfl

/-- The segments of the path of a place below the root are the names of the place. -/
theorem segmentsOf_pathOf (hne : place ≠ []) (h : ∀ name ∈ place, isName name = true) :
    segmentsOf (pathOf place).text.toList = place := by
  have hsegment : ∀ s ∈ place.map String.toList, Path.IsSegment s := by
    intro s hs
    obtain ⟨name, hname, rfl⟩ := List.mem_map.mp hs
    exact Path.isName_iff.mp (h name hname)
  have hsplit : Path.splitSlash (Path.joinSlash (place.map String.toList)) =
      place.map String.toList :=
    Path.splitSlash_joinSlash (by simpa using hne) fun s hs => (hsegment s hs).2.2.2
  have hlast : ('/' :: Path.joinSlash (place.map String.toList)).getLast? ≠ some '/' := by
    obtain ⟨front, last, rfl⟩ := (List.eq_nil_or_concat place).resolve_left hne
    rw [List.concat_eq_append] at hsegment ⊢
    have hs := hsegment last.toList (by simp)
    have hend : (Path.joinSlash ((front ++ [last]).map String.toList)).getLast? =
        last.toList.getLast? := by
      rw [List.map_append, List.map_singleton]
      by_cases hfront : front.map String.toList = []
      · rw [hfront]
        rfl
      · rw [Path.joinSlash_append hfront (by simp), List.getLast?_append_of_ne_nil _ (by simp)]
        exact List.getLast?_cons_of_ne_nil hs.1
    have hlastChar : last.toList.getLast? ≠ some '/' := fun heq =>
      hs.2.2.2 (List.mem_of_getLast? heq)
    rw [List.getLast?_cons_of_ne_nil, hend]
    · exact hlastChar
    · intro hnil
      rw [hnil] at hend
      exact hs.1 (List.getLast?_eq_none_iff.mp hend.symm)
  have hfilter : (place.map String.toList).filter (fun s => !s.isEmpty) =
      place.map String.toList :=
    List.filter_eq_self.mpr fun s hs => by simpa using (hsegment s hs).1
  rw [toList_pathOf h, segmentsOf, Path.splitSlash_slash, hsplit, if_neg (by simpa using hlast),
    List.filter_cons_of_neg (by simp), hfilter, List.map_map]
  exact List.map_id'' (fun name => String.ofList_toList) place

theorem forall_isName_goTo (h : ∀ name ∈ place, isName name = true) {c : Path.Component}
    (hc : c.IsProper) : ∀ name ∈ goTo place c, isName name = true := by
  cases c with
  | name text =>
    intro name hname
    rcases List.mem_append.mp hname with hname | hname
    · exact h name hname
    · rw [List.mem_singleton.mp hname]
      exact Path.isName_iff.mpr hc
  | up => exact fun name hname => h name (List.dropLast_subset place hname)
  | root | here => exact hc.elim

theorem forall_isName_foldl_goTo {cs : List Path.Component} (hcs : ∀ c ∈ cs, c.IsProper)
    (h : ∀ name ∈ place, isName name = true) :
    ∀ name ∈ cs.foldl goTo place, isName name = true := by
  induction cs generalizing place with
  | nil => exact h
  | cons c cs ih =>
    exact ih (fun e he => hcs e (List.mem_cons_of_mem c he))
      (forall_isName_goTo h (hcs c List.mem_cons_self))

/-- The path above a place is that of the place above it. -/
theorem parent?_pathOf_concat {name : String} (h : ∀ n ∈ place ++ [name], isName n = true) :
    (pathOf (place ++ [name])).parent? = some (pathOf place) := by
  have hproper := isProper_of_forall_isName h
  rw [List.map_append, List.map_singleton] at hproper
  rw [pathOf, List.map_append, List.map_singleton]
  exact Path.parent?_ofComponents_root hproper

/-- Working a component into the text of a place is working it into the place. -/
theorem step_pathOf (h : ∀ name ∈ place, isName name = true) {c : Path.Component}
    (hc : c.IsProper) : (pathOf place).step c = pathOf (goTo place c) := by
  cases c with
  | name text => simp [Path.step, goTo, pathOf, Path.join, Path.ofComponents, Path.Component.chars]
  | up =>
    rcases List.eq_nil_or_concat place with rfl | ⟨above, name, rfl⟩
    · decide
    · rw [List.concat_eq_append] at h ⊢
      rw [Path.step, parent?_pathOf_concat h, Option.getD_some, goTo, List.dropLast_concat]
  | root | here => exact hc.elim

theorem foldl_step_pathOf {cs : List Path.Component} (hcs : ∀ c ∈ cs, c.IsProper)
    (h : ∀ name ∈ place, isName name = true) :
    cs.foldl Path.step (pathOf place) = pathOf (cs.foldl goTo place) := by
  induction cs generalizing place with
  | nil => rfl
  | cons c cs ih =>
    have hc := hcs c List.mem_cons_self
    rw [List.foldl_cons, step_pathOf h hc, ih (fun e he => hcs e (List.mem_cons_of_mem c he))
      (forall_isName_goTo h hc), List.foldl_cons]

/-- A relative path worked into the text of a place is worked into the place. -/
theorem extend_pathOf (h : ∀ name ∈ place, isName name = true) {target : String}
    (htarget : startsAtRoot target.toList = false) :
    (pathOf place).extend ⟨target⟩ =
      pathOf ((Path.body target.toList).foldl goTo place) := by
  have hbody : ∀ c ∈ Path.body target.toList, c.IsProper := fun c => Path.isProper_of_mem_body
  have hlead : (Path.splitLead target.toList).1 = none ∨
      (Path.splitLead target.toList).1 = some .here := by
    unfold Path.splitLead
    split
    · simp_all [startsAtRoot]
    · exact .inr rfl
    · exact .inr rfl
    · exact .inl rfl
  have hroot : (⟨target⟩ : Path).components.head? ≠ some .root := by
    intro hhead
    have habs := Path.isAbsolute_of_head?_components hhead
    rw [startsAtRoot] at htarget
    simp [Path.isAbsolute, htarget] at habs
  rw [Path.extend, if_neg (by simpa using hroot), Path.components_eq_lead_body, List.foldl_append]
  rcases hlead with hlead | hlead <;> rw [hlead]
  · exact foldl_step_pathOf hbody h
  · exact foldl_step_pathOf hbody h

/-- The components that are kept behind the root are the names of a place, the last one first. -/
theorem foldl_cleanStep {cs : List Path.Component} (hcs : ∀ c ∈ cs, c.IsProper) (place : Place) :
    cs.foldl Path.cleanStep (place.reverse.map .name ++ [.root]) =
      (cs.foldl goTo place).reverse.map .name ++ [.root] := by
  induction cs generalizing place with
  | nil => rfl
  | cons c cs ih =>
    have hrest := ih fun e he => hcs e (List.mem_cons_of_mem c he)
    have hc := hcs c List.mem_cons_self
    rw [List.foldl_cons, List.foldl_cons]
    cases c with
    | name text => simpa [goTo, Path.cleanStep] using hrest (place ++ [text])
    | up =>
      rcases List.eq_nil_or_concat place with rfl | ⟨above, name, rfl⟩
      · exact hrest []
      · have habove := hrest above
        simpa [goTo, Path.cleanStep] using habove
    | root | here => exact hc.elim

/-- The lexical normal form of an absolute path is the text of the place that its components give
when they are worked into the root. -/
theorem clean_eq_pathOf (hp : p.isAbsolute = true) :
    p.clean = pathOf (p.components.tail.foldl goTo []) := by
  obtain ⟨cs, rfl⟩ := Path.isAbsolute_iff.mp hp
  have hcs : ∀ c ∈ Path.body cs, c.IsProper := fun c => Path.isProper_of_mem_body
  have hclean : Path.cleanComponents (.root :: Path.body cs) =
      .root :: ((Path.body cs).foldl goTo []).map .name := by
    rw [Path.cleanComponents, List.foldl_cons]
    change ((Path.body cs).foldl Path.cleanStep (([] : Place).reverse.map .name ++ [.root])).reverse
      = _
    rw [foldl_cleanStep hcs []]
    simp
  rw [Path.clean, Path.components_slash, hclean]
  rfl

/-! ### Following trails -/

/-- What is reached without links along components is what they give when they are worked into the
place. -/
theorem Reaches.eq_foldl_goTo {cs : List Path.Component} (hcs : ∀ c ∈ cs, c.IsProper)
    (h : d.Reaches false place (cs.map Path.Component.segment) r) : cs.foldl goTo place = r := by
  induction cs generalizing place with
  | nil =>
    cases h with
    | done => rfl
  | cons c cs ih =>
    have hrest {place : Place} (h : d.Reaches false place (cs.map Path.Component.segment) r) :
        cs.foldl goTo place = r := ih (fun e he => hcs e (List.mem_cons_of_mem c he)) h
    have hc := hcs c List.mem_cons_self
    rw [List.map_cons] at h
    cases c with
    | name text =>
      rw [Path.Component.segment_name] at h
      obtain ⟨-, hdot, hdots, -⟩ := hc
      cases h with
      | here => exact absurd rfl hdot
      | up => exact absurd rfl hdots
      | down _ _ _ _ h => exact hrest h
      | link hlinks => cases hlinks
    | up =>
      generalize hup : Path.Component.up.segment = segment at h
      cases h with
      | here => exact absurd hup (by decide)
      | up _ h => exact hrest h
      | down _ hname => exact absurd hup.symm hname.notUp
      | link hlinks => cases hlinks
    | root | here => exact hc.elim

theorem Reaches.eq_goTo {c : Path.Component} (hc : c.IsProper)
    (h : d.Reaches false place [c.segment] r) : goTo place c = r := by
  have hproper : ∀ e ∈ [c], e.IsProper := by simpa using hc
  exact Reaches.eq_foldl_goTo hproper h

/-- Names that are worked into a place are put behind it. -/
theorem foldl_goTo_name (place : Place) (names : List String) :
    (names.map Path.Component.name).foldl goTo place = place ++ names := by
  rw [List.foldl_map]
  induction names generalizing place with
  | nil => exact (List.append_nil place).symm
  | cons name names ih =>
    rw [List.foldl_cons, ih, goTo, List.append_assoc]
    rfl

/-- Names that are followed without links lead to the place they give. -/
theorem Reaches.eq_append {segments : List String} (h : d.Reaches false place segments r)
    (hnames : ∀ name ∈ segments, isName name = true) : r = place ++ segments := by
  have hcs : ∀ c ∈ segments.map Path.Component.name, c.IsProper := isProper_of_forall_isName hnames
  have hmap : (segments.map Path.Component.name).map Path.Component.segment = segments := by
    rw [List.map_map]
    exact List.map_id'' (fun name => Path.Component.segment_name name) segments
  rw [← hmap] at h
  rw [← h.eq_foldl_goTo hcs, foldl_goTo_name]

/-- A bounded walk along an absolute path, as far as it is made at all. -/
theorem walk_of_followIf {last : Bool} (hp : p.isAbsolute = true)
    (h : d.followIf last p = .ok r) :
    d.walk last maxLinks [] (segmentsOf p.text.toList) = .ok r := by
  unfold followIf at h
  dsimp only at h
  have hroot : startsAtRoot p.text.toList = true := hp
  split_ifs at h
  exact h

/-- What an absolute path leads to without links is what is found by following it. -/
theorem Reaches.eq_of_followIf {last : Bool} {m : Place} (hp : p.isAbsolute = true)
    (h : d.Reaches false [] p.trail r) (hfollow : d.followIf last p = .ok m) : m = r := by
  rw [Path.trail_eq hp] at h
  exact h.eq_of_walk (walk_of_followIf hp hfollow)

/-- Where no link leads to a directory, a path to anything else is reached along its trail. -/
theorem Reaches.of_segmentsOf (hd : d.LinksMissDirectories) (hp : p.isAbsolute = true)
    (h : d.Reaches true [] (segmentsOf p.text.toList) r) : d.Reaches true [] p.trail r := by
  rw [Path.trail_eq hp]
  rcases h.direct_or_link hd with h | ⟨front, name, target, m, hsplit, hfront, hdir, hname, he, h⟩
  · exact h.filter.mono
  · rw [hsplit, List.filter_append, List.filter_cons_of_pos (by simpa using hname.notHere)]
    refine hfront.filter.mono.trans (.link rfl hdir hname he ?_)
    rwa [List.filter_nil, List.append_nil]

/-- What an absolute path leads to is reached along its trail. -/
theorem reaches_trail_of_follow (hd : d.LinksMissDirectories) (hp : p.isAbsolute = true)
    (h : d.follow p = .ok r) : d.Reaches true [] p.trail r :=
  (reaches_of_walk (walk_of_followIf hp h)).of_segmentsOf hd hp

/-! ### Canonical forms -/

/-- A path names no link if it leads to something else without links. -/
theorem linkAt?_eq_none {e : Entry} (hp : p.isAbsolute = true)
    (h : d.Reaches false [] p.trail r) (he : d.entry? r = some e) (hlink : e.isLink = false) :
    d.linkAt? p = none := by
  unfold linkAt?
  split
  · next m hm =>
    rw [h.eq_of_followIf hp hm, he]
    cases e with
    | link target => cases hlink
    | directory | file => rfl
  · rfl

/-- The link that the path of a place names is the one at the place. -/
theorem eq_target_of_linkAt? {name target found : String} (h : d.IsSettled place)
    (hdir : d.entry? place = some .directory) (hname : GoesDown name)
    (he : d.entry? (place ++ [name]) = some (.link target))
    (hfound : d.linkAt? (pathOf (place ++ [name])) = some found) : found = target := by
  have hnames : ∀ n ∈ place ++ [name], isName n = true := isName_of_entry?_eq he
  unfold linkAt? at hfound
  split at hfound
  · next m hm =>
    have hwalk := walk_of_followIf (isAbsolute_pathOf _) hm
    rw [segmentsOf_pathOf (by simp) hnames] at hwalk
    obtain rfl := Except.ok.inj
      (hwalk.symm.trans (walk_of_reaches_link h.reaches hdir hname he maxLinks))
    rw [he] at hfound
    exact (Option.some.inj hfound).symm
  · cases hfound

theorem canonicalAlong_concat (onLink : Path → Except Fault Path) (above : Path)
    (below : List Path) :
    d.canonicalAlong onLink above (below ++ [p]) =
      (d.canonicalAlong onLink above below).bind fun q => d.canonicalStep onLink q p := by
  induction below generalizing above with
  | nil =>
    change (d.canonicalStep onLink above p).bind _ = d.canonicalStep onLink above p
    cases d.canonicalStep onLink above p <;> rfl
  | cons b below ih =>
    change (d.canonicalStep onLink above b).bind _ =
      ((d.canonicalStep onLink above b).bind _).bind _
    cases d.canonicalStep onLink above b with
    | error fault => rfl
    | ok next => exact ih next

/-- The canonical form of a path is worked out from that of the path above it. -/
theorem canonicalWithin_of_parent? {bound : Nat} (hp : p.isAbsolute = true)
    (h : p.parent? = some q) :
    d.canonicalWithin (bound + 1) p = (d.canonicalWithin (bound + 1) q).bind fun above =>
      d.canonicalStep (d.canonicalWithin bound) above p := by
  rw [canonicalWithin, canonicalWithin, Path.ancestors_of_parent? hp h, List.reverse_cons]
  cases hchain : q.ancestors.reverse with
  | nil => simp [Path.ancestors, Path.ancestorsUpTo] at hchain
  | cons top below =>
    rw [List.cons_append]
    exact canonicalAlong_concat _ _ _

/-- The canonical form of a path to a directory that is reached without links is the text of its
place. -/
theorem canonicalWithin_directory {bound : Nat} (hp : p.isAbsolute = true)
    (h : p.parent? = some q) (hreach : d.Reaches false [] q.trail r)
    (hdir : d.entry? r = some .directory) : d.canonicalWithin (bound + 1) q = .ok (pathOf r) := by
  induction hlen : q.text.length using Nat.strong_induction_on generalizing p q r with
  | _ n ih =>
    obtain ⟨hq, -, -⟩ := Path.parent?_eq_some hp h
    cases hparent : q.parent? with
    | none =>
      have hroot := Path.parent?_eq_none hq hparent
      obtain rfl := Path.parent?_eq_root hp h hroot
      rw [Path.trail, hroot] at hreach
      cases hreach with
      | done => rfl
    | some above =>
      obtain ⟨habove, ⟨c, hlast, hc, hcomponents⟩, hshort⟩ := Path.parent?_eq_some hq hparent
      have htrail := Path.trail_of_components habove hcomponents
      have hstep := hreach
      rw [htrail] at hstep
      obtain ⟨m, hm, hlastStep⟩ := hstep.split
      have hmdir := hlastStep.isDirectory (by simp)
      have hsettled := IsSettled.of_reaches hm isSettled_nil
      have hlink : (d.linkAt? q).isNone = true := by
        rw [linkAt?_eq_none hq hreach hdir rfl, Option.isNone_none]
      rw [canonicalWithin_of_parent? hq hparent,
        ih above.text.length (by omega) hq hparent hm hmdir rfl]
      change d.canonicalStep _ (pathOf m) q = _
      rw [canonicalStep, if_pos hlink, hlast, Option.map_some, Option.getD_some,
        step_pathOf hsettled.names hc, hlastStep.eq_goTo hc]

/-- What the target of a link that leads past directories only is worked out to: a place that leads
where the target does. -/
theorem Reaches.exists_goTo (hd : d.LinksMissDirectories) {target : String}
    (hplace : d.IsSettled place) (h : d.Reaches true place (segmentsOf target.toList) r) :
    d.Reaches true [] ((Path.body target.toList).foldl goTo place) r := by
  have hproper : ∀ c ∈ Path.body target.toList, c.IsProper := fun c => Path.isProper_of_mem_body
  have hfilter := Path.filter_segmentsOf target.toList
  rcases h.direct_or_link hd with h | ⟨front, name, target', m, hsplit, hfront, hdir, hname, he, h⟩
  · have hreach := h.filter
    rw [hfilter] at hreach
    rw [hreach.eq_foldl_goTo hproper]
    exact (IsSettled.of_reaches h hplace).reaches.mono
  · rw [hsplit, List.filter_append, List.filter_cons_of_pos (by simpa using hname.notHere),
      List.filter_nil] at hfilter
    obtain ⟨cs, ds, hbody, hcs, hds⟩ := List.map_eq_append_iff.mp hfilter.symm
    obtain ⟨c, rfl, hc⟩ := List.map_eq_singleton_iff.mp hds
    rw [hbody] at hproper ⊢
    have hfront' := hfront.filter
    rw [← hcs] at hfront'
    have hm : cs.foldl goTo place = m :=
      hfront'.eq_foldl_goTo fun c hc => hproper c (List.mem_append_left _ hc)
    rw [List.foldl_append, hm, (hproper c (by simp)).eq_name_of_segment hc hname]
    refine (IsSettled.of_reaches hfront hplace).reaches.mono.trans (.link rfl hdir hname he ?_)
    rwa [List.append_nil]

/-- Behind a directory that is passed without links, the canonical form of a path is the text of the
next place, unless a link is found there and followed. -/
theorem canonicalWithin_eq_ok {bound : Nat} {above : Path} {c : Path.Component} {m : Place}
    (hp : p.isAbsolute = true) (hparent : p.parent? = some above) (hlast : p.last? = some c)
    (hc : c.IsProper) (hm : d.Reaches false [] above.trail m)
    (hdir : d.entry? m = some .directory) (hq : d.canonicalWithin (bound + 1) p = .ok q) :
    q = pathOf (goTo m c) ∨ ∃ target, d.linkAt? (pathOf (goTo m c)) = some target ∧
      d.canonicalWithin bound (if startsAtRoot target.toList then (⟨target⟩ : Path).clean
        else ((pathOf (goTo m c)).parent?.getD (pathOf (goTo m c))).extend ⟨target⟩) = .ok q := by
  have hnames := (IsSettled.of_reaches hm isSettled_nil).names
  rw [canonicalWithin_of_parent? hp hparent, canonicalWithin_directory hp hparent hm hdir] at hq
  change d.canonicalStep _ (pathOf m) p = _ at hq
  rw [canonicalStep, hlast, Option.map_some, Option.getD_some, step_pathOf hnames hc] at hq
  split at hq
  · exact .inl (Except.ok.inj hq).symm
  · split at hq
    · cases hq
    · next target htarget =>
      refine .inr ⟨target, htarget, ?_⟩
      split_ifs at hq ⊢ with hroot
      · exact hq
      · exact hq

/-- The target of a link is worked out to the text of a place that leads where the target does. -/
theorem exists_place_of_target (hd : d.LinksMissDirectories) {name target : String}
    (hplace : d.IsSettled place) (hnames : ∀ n ∈ place ++ [name], isName n = true)
    (h : d.Reaches true (linkStart target place) (segmentsOf target.toList) r) :
    ∃ m, (∀ name ∈ m, isName name = true) ∧ d.Reaches true [] m r ∧
      (if startsAtRoot target.toList then (⟨target⟩ : Path).clean
        else ((pathOf (place ++ [name])).parent?.getD (pathOf (place ++ [name]))).extend ⟨target⟩) =
        pathOf m := by
  have hbody : ∀ c ∈ Path.body target.toList, c.IsProper := fun c => Path.isProper_of_mem_body
  rw [linkStart] at h
  split_ifs at h ⊢ with hroot
  · have habs : (⟨target⟩ : Path).isAbsolute = true := hroot
    refine ⟨(Path.body target.toList).foldl goTo [], forall_isName_foldl_goTo hbody (by simp),
      h.exists_goTo hd isSettled_nil, ?_⟩
    rw [clean_eq_pathOf habs, Path.components_tail habs]
  · refine ⟨(Path.body target.toList).foldl goTo place,
      forall_isName_foldl_goTo hbody hplace.names, h.exists_goTo hd hplace, ?_⟩
    rw [parent?_pathOf_concat hnames, Option.getD_some,
      extend_pathOf hplace.names (by simpa using hroot)]

/-- Where no link leads to a directory, the canonical form of a path to a file is the text of a
place, and the names of that place lead to the file. -/
theorem exists_place_of_canonicalWithin (hd : d.LinksMissDirectories) {bound : Nat}
    {contents : ByteArray} (hp : p.isAbsolute = true) (h : d.Reaches true [] p.trail r)
    (hr : d.entry? r = some (.file contents)) (hq : d.canonicalWithin bound p = .ok q) :
    ∃ place, (∀ name ∈ place, isName name = true) ∧ q = pathOf place ∧
      d.Reaches true [] place r := by
  induction bound generalizing p with
  | zero => cases hq
  | succ bound ih =>
    cases hparent : p.parent? with
    | none =>
      rw [Path.trail, Path.parent?_eq_none hp hparent] at h
      cases h with
      | done => cases hr
    | some above =>
      obtain ⟨habove, ⟨c, hlast, hc, hcomponents⟩, -⟩ := Path.parent?_eq_some hp hparent
      rw [Path.trail_of_components habove hcomponents] at h
      rcases h.direct_or_link hd with h | ⟨front, name, target, m, hsplit, hm, hdir, hname, he, h⟩
      · -- The path names the file itself, so there is no link to follow.
        obtain ⟨m, hm, hstep⟩ := h.split
        have hsettled := IsSettled.of_reaches h isSettled_nil
        have hcases := canonicalWithin_eq_ok hp hparent hlast hc hm (hstep.isDirectory (by simp)) hq
        rw [hstep.eq_goTo hc] at hcases
        rcases hcases with hq | ⟨target, htarget, -⟩
        · exact ⟨r, hsettled.names, hq, hsettled.reaches.mono⟩
        · have hreach : d.Reaches false [] (pathOf r).trail r := by
            rw [trail_pathOf hsettled.names]
            exact hsettled.reaches
          rw [linkAt?_eq_none (isAbsolute_pathOf _) hreach hr rfl] at htarget
          cases htarget
      · -- The path names a link, which stands for another path to the file.
        obtain ⟨rfl, hsegment⟩ := List.append_inj' hsplit rfl
        obtain rfl := hc.eq_name_of_segment (List.cons.inj hsegment).1 hname
        have hsettled := IsSettled.of_reaches hm isSettled_nil
        have hnames : ∀ n ∈ m ++ [name], isName n = true := isName_of_entry?_eq he
        rcases canonicalWithin_eq_ok hp hparent hlast hc hm hdir hq with hq | ⟨found, hfound, hq⟩
        · refine ⟨m ++ [name], hnames, hq, hsettled.reaches.mono.trans (.link rfl hdir hname he ?_)⟩
          rwa [List.append_nil]
        · obtain rfl := eq_target_of_linkAt? hsettled hdir hname he hfound
          obtain ⟨n, hn, hreach, htext⟩ := exists_place_of_target hd hsettled hnames h
          rw [goTo, htext] at hq
          exact ih (isAbsolute_pathOf _) (by rwa [trail_pathOf hn]) hq

/-- Where no link leads to a directory, the canonical form of a path to a file leads to the
file. -/
theorem exists_place_of_canonical (hd : d.LinksMissDirectories) {contents : ByteArray}
    (hp : p.isAbsolute = true) (h : d.follow p = .ok r)
    (hr : d.entry? r = some (.file contents)) (hq : d.canonical p = .ok q) :
    ∃ place, (∀ name ∈ place, isName name = true) ∧ q = pathOf place ∧
      d.Reaches true [] place r :=
  exists_place_of_canonicalWithin hd hp (reaches_trail_of_follow hd hp h) hr hq

end Disk

end Files

end ModuleGraph
