import SpanWire.Cli.Files
import SpanWire.Proofs.Json.Reader

/-! What is written to a path is what is read from it afterwards. -/
namespace SpanWire.Cli

/-- The way to where a file is or may be put. -/
def Place.way? : Place → Option (List String)
  | .file way => some way
  | .free way => some way
  | .directory _ => none

namespace Files

@[simp] theorem mount_put (files : Files) (way : List String) (content : ByteArray) :
    (files.put way content).mount = files.mount := by
  unfold put
  split <;> rfl

/-- What is written to a place opens and closes none. -/
@[simp] theorem lock_put (files : Files) (way other : List String) (content : ByteArray) :
    (files.put way content).lock other = files.lock other := by
  rw [lock, mount_put]
  rfl

/-- Whether a way leads through another and beyond it. -/
def isWayTo (way : List String) (file : List String) : Bool :=
  way.isPrefixOf file && way.length < file.length

theorem hasDirectory_eq (files : Files) (way : List String) :
    files.hasDirectory way =
      (files.mount.directories.any (way.isPrefixOf ·) ||
        (files.entries.map Prod.fst).any (isWayTo way)) := by
  rw [List.any_map]
  rfl

/-- A file that is put is there for one name more at most. -/
theorem ways_put (files : Files) (way : List String) (content : ByteArray) :
    (files.put way content).entries.map Prod.fst =
      files.entries.map Prod.fst ++ if (files.get? way).isSome then [] else [way] := by
  unfold put
  split
  · rw [List.map_map, List.append_nil]
    refine List.map_congr_left fun e _ => ?_
    by_cases he : e.1 = way
    · simp only [Function.comp_apply, he, if_true]
    · simp only [Function.comp_apply, he, if_false]
  · rw [List.map_append, List.map_singleton]

/-- Directories stay, and no file becomes one. -/
theorem hasDirectory_put (files : Files) (way : List String) (content : ByteArray)
    {above : List String} (h : files.hasDirectory above = true) :
    (files.put way content).hasDirectory above = true := by
  rw [hasDirectory_eq] at h ⊢
  rw [mount_put, ways_put, List.any_append, ← Bool.or_assoc, h, Bool.true_or]

theorem hasDirectory_put_self (files : Files) (way : List String) (content : ByteArray)
    (h : files.hasDirectory way = false) : (files.put way content).hasDirectory way = false := by
  have hself : isWayTo way way = false := by simp [isWayTo]
  rw [hasDirectory_eq] at h ⊢
  rw [mount_put, ways_put, List.any_append, ← Bool.or_assoc, h, Bool.false_or]
  split
  · rfl
  · rw [List.any_cons, hself]
    rfl

theorem find?_replace (way : List String) (content : ByteArray)
    {entries : List (List String × ByteArray)}
    (h : (entries.find? (·.1 = way)).isSome = true) :
    (entries.map fun e => if e.1 = way then (way, content) else e).find? (·.1 = way) =
      some (way, content) := by
  induction entries with
  | nil => contradiction
  | cons e entries ih =>
    by_cases he : e.1 = way
    · rw [List.map_cons, if_pos he, List.find?_cons_of_pos (by simp)]
    · rw [List.find?_cons_of_neg (by simpa using he)] at h
      rw [List.map_cons, if_neg he, List.find?_cons_of_neg (by simpa using he), ih h]

theorem get?_put_self (files : Files) (way : List String) (content : ByteArray) :
    (files.put way content).get? way = some content := by
  unfold put
  split
  · next hthere =>
    rw [get?, Option.isSome_map] at hthere
    rw [get?, find?_replace way content hthere]
    rfl
  · next hnew =>
    rw [get?, Option.isSome_map, Bool.not_eq_true, Option.isSome_eq_false_iff,
      Option.isNone_iff_eq_none] at hnew
    rw [get?, List.find?_append, hnew]
    simp

theorem find?_replace_of_ne {way other : List String} (h : other ≠ way) (content : ByteArray)
    (entries : List (List String × ByteArray)) :
    (entries.map fun e => if e.1 = way then (way, content) else e).find? (·.1 = other) =
      entries.find? (·.1 = other) := by
  induction entries with
  | nil => rfl
  | cons e entries ih =>
    rw [List.map_cons, List.find?_cons, List.find?_cons, ih]
    by_cases he : e.1 = way
    · have hother : way ≠ other := Ne.symm h
      simp [he, hother]
    · rw [if_neg he]

/-- Every other file keeps its content. -/
theorem get?_put_of_ne (files : Files) {way other : List String} (h : other ≠ way)
    (content : ByteArray) : (files.put way content).get? other = files.get? other := by
  unfold put
  split
  · rw [get?, get?, find?_replace_of_ne h]
  · have hother : way ≠ other := Ne.symm h
    rw [get?, get?, List.find?_append]
    simp [hother]

/-- A name of a file or a directory. -/
structure IsName (name : String) : Prop where
  notBlank : name ≠ ""
  notHere : name ≠ "."
  notAbove : name ≠ ".."
  short : ¬ 255 < name.utf8ByteSize

/-- How a name is followed on the way to a place: not at all where it is blank, and otherwise from
a directory that is open; on the spot, upwards, into a directory, or as the last one to a file. -/
inductive Follows (files : Files) (start : List String) (place : Place) (name : String)
    (names : List String) : Prop
  | blank : name = "" → files.follow start names = .ok place → Follows files start place name names
  | here : name = "." → (files.lock start).toRead = .ok () →
    files.follow start names = .ok place → Follows files start place name names
  | above : name = ".." → (files.lock start).toRead = .ok () →
    files.follow (above start) names = .ok place → Follows files start place name names
  | enter : IsName name → (files.lock start).toRead = .ok () →
    files.hasDirectory (start ++ [name]) = true →
    files.follow (start ++ [name]) names = .ok place → Follows files start place name names
  | last : IsName name → (files.lock start).toRead = .ok () →
    files.hasDirectory (start ++ [name]) = false → names = [] →
    place.way? = some (start ++ [name]) → Follows files start place name names

variable {files : Files} {name : String} {names start way : List String} {place : Place}

theorem follow_blank : files.follow start ("" :: names) = files.follow start names := by
  rw [follow, if_pos rfl]

theorem follow_here (hopen : (files.lock start).toRead = .ok ()) :
    files.follow start ("." :: names) = files.follow start names := by
  rw [follow, if_neg (by decide), hopen]
  rfl

theorem follow_above (hopen : (files.lock start).toRead = .ok ()) :
    files.follow start (".." :: names) = files.follow (above start) names := by
  rw [follow, if_neg (by decide), hopen]
  rfl

theorem follow_name (hopen : (files.lock start).toRead = .ok ()) (h : IsName name) :
    files.follow start (name :: names) =
      if files.hasDirectory (start ++ [name]) then files.follow (start ++ [name]) names
      else if (files.get? (start ++ [name])).isSome then
        if names = [] then .ok (.file (start ++ [name])) else .error .notDirectory
      else if names = [] then .ok (.free (start ++ [name]))
      else .error .notFound := by
  rw [follow, if_neg h.notBlank, hopen]
  change (if name = "." then _ else _) = _
  rw [if_neg h.notHere, if_neg h.notAbove, if_neg h.short]

theorem follows_of_ok (h : files.follow start (name :: names) = .ok place) :
    Follows files start place name names := by
  by_cases hblank : name = ""
  · rw [hblank, follow_blank] at h
    exact .blank hblank h
  cases hopen : (files.lock start).toRead with
  | error why =>
    rw [follow, if_neg hblank, hopen] at h
    contradiction
  | ok _ =>
    by_cases hhere : name = "."
    · rw [hhere, follow_here hopen] at h
      exact .here hhere hopen h
    by_cases habove : name = ".."
    · rw [habove, follow_above hopen] at h
      exact .above habove hopen h
    by_cases hlong : 255 < name.utf8ByteSize
    · rw [follow, if_neg hblank, hopen] at h
      change (if name = "." then _ else _) = _ at h
      rw [if_neg hhere, if_neg habove, if_pos hlong] at h
      contradiction
    have hname : IsName name := ⟨hblank, hhere, habove, hlong⟩
    rw [follow_name hopen hname] at h
    cases hdir : files.hasDirectory (start ++ [name]) with
    | true =>
      rw [hdir, if_pos rfl] at h
      exact .enter hname hopen hdir h
    | false =>
      rw [hdir, if_neg Bool.false_ne_true] at h
      by_cases hnames : names = []
      · rw [if_pos hnames, if_pos hnames] at h
        have hway : place.way? = some (start ++ [name]) := by
          split at h <;> exact congrArg Place.way? (Except.ok.inj h).symm
        exact .last hname hopen hdir hnames hway
      · rw [if_neg hnames, if_neg hnames] at h
        split at h <;> contradiction

/-- Whoever follows the same names again finds the file that was put there. -/
theorem follow_put (h : files.follow start names = .ok place)
    (hplace : place.way? = some way) (content : ByteArray) :
    (files.put way content).follow start names = .ok (.file way) := by
  induction names generalizing start with
  | nil =>
    obtain rfl := Except.ok.inj h
    contradiction
  | cons name names ih =>
    have hstill {other : List String} (hopen : (files.lock other).toRead = .ok ()) :
        ((files.put way content).lock other).toRead = .ok () := by
      rwa [lock_put]
    cases follows_of_ok h with
    | blank hblank hrest =>
      rw [hblank, follow_blank]
      exact ih hrest
    | here hhere hopen hrest =>
      rw [hhere, follow_here (hstill hopen)]
      exact ih hrest
    | above habove hopen hrest =>
      rw [habove, follow_above (hstill hopen)]
      exact ih hrest
    | enter hname hopen hdir hrest =>
      rw [follow_name (hstill hopen) hname, hasDirectory_put files way content hdir, if_pos rfl]
      exact ih hrest
    | last hname hopen hdir hnames hway =>
      subst hnames
      obtain rfl : start ++ [name] = way := Option.some.inj (hway.symm.trans hplace)
      rw [follow_name (hstill hopen) hname, hasDirectory_put_self files _ content hdir,
        get?_put_self]
      rfl

/-- Names that go on where a directory was reached lead to no file. -/
theorem way?_of_follow_dot (h : files.follow start (names ++ ["."]) = .ok place) :
    place.way? = none := by
  induction names generalizing start with
  | nil =>
    cases follows_of_ok h with
    | here _ _ hrest =>
      obtain rfl := Except.ok.inj hrest
      rfl
    | blank hblank | above hblank => exact absurd hblank (by decide)
    | enter hname | last hname => exact absurd rfl hname.notHere
  | cons name names ih =>
    cases follows_of_ok h with
    | blank _ hrest | here _ _ hrest | above _ _ hrest | enter _ _ _ hrest => exact ih hrest
    | last _ _ _ hnames =>
      exact absurd hnames (List.append_ne_nil_of_right_ne_nil names (List.cons_ne_nil "." []))

/-- A path that a file is written to does not end in a slash. -/
theorem namesToWrite_eq {path : String}
    (h : files.follow start (namesToWrite path) = .ok place)
    (hplace : place.way? = some way) : namesToWrite path = namesOfPath path := by
  unfold namesToWrite at h ⊢
  dsimp only at h ⊢
  by_cases hslash : (namesOfPath path).getLast? = some ""
  · rw [if_pos hslash] at h
    rw [way?_of_follow_dot h] at hplace
    contradiction
  · exact if_neg hslash

/-- No empty name stands behind the name of a file. -/
theorem getLast?_ne_of_follow (h : files.follow start names = .ok place)
    (hplace : place.way? = some way) : names.getLast? ≠ some "" := by
  induction names generalizing start with
  | nil => exact nofun
  | cons name names ih =>
    have hmore {next : List String} (hnext : files.follow next names = .ok place) :
        (name :: names).getLast? ≠ some "" := by
      cases names with
      | nil =>
        obtain rfl := Except.ok.inj hnext
        contradiction
      | cons other names => exact ih hnext
    cases follows_of_ok h with
    | blank _ hrest | here _ _ hrest | above _ _ hrest | enter _ _ _ hrest => exact hmore hrest
    | last hname _ _ hnames =>
      subst hnames
      exact fun hlast => hname.notBlank (Option.some.inj hlast)

/-- Whether a path leads to a file, and which way. -/
def Leads (files : Files) (path : String) (way : List String) : Prop :=
  files.locate path (namesOfPath path) = .ok (.file way)

theorem Leads.namesToWrite_eq {path : String} (h : files.Leads path way) :
    namesToWrite path = namesOfPath path := by
  have hfollow : ∃ start, files.follow start (namesOfPath path) = .ok (.file way) := by
    unfold Leads locate at h
    split at h
    · contradiction
    · split at h <;> exact ⟨_, h⟩
  obtain ⟨start, hfollow⟩ := hfollow
  unfold namesToWrite
  exact if_neg (getLast?_ne_of_follow hfollow rfl)

/-- A file that a path leads to can be written unless it is closed, and nothing else is. -/
theorem Leads.write {path : String} (h : files.Leads path way) (content : ByteArray) :
    files.write path content = (files.lock way).toWrite.map fun _ => files.put way content := by
  unfold Files.write
  rw [h.namesToWrite_eq, h]
  dsimp only
  cases (files.lock way).toWrite <;> rfl

theorem Leads.read {path : String} {content : ByteArray} (h : files.Leads path way) :
    files.read path = .ok content ↔
      (files.lock way).toRead = .ok () ∧ files.get? way = some content := by
  unfold Files.read
  rw [h]
  dsimp only
  cases (files.lock way).toRead <;> cases files.get? way <;>
    simp [Except.mapError, bind, Except.bind]

theorem locate_put {path : String}
    (h : files.locate path (namesToWrite path) = .ok place)
    (hplace : place.way? = some way) (content : ByteArray) :
    (files.put way content).locate path (namesOfPath path) = .ok (.file way) := by
  unfold locate at h ⊢
  by_cases hlong : 4095 < path.utf8ByteSize
  · rw [if_pos hlong] at h
    contradiction
  rw [if_neg hlong] at h ⊢
  by_cases hroot : path.toList.head? = some '/'
  · rw [if_pos hroot] at h ⊢
    rw [namesToWrite_eq h hplace] at h
    exact follow_put h hplace content
  · rw [if_neg hroot] at h ⊢
    rw [namesToWrite_eq h hplace] at h
    exact follow_put h hplace content

/-- A file stays where it is when it gets another content. -/
theorem Leads.put {path : String} (h : files.Leads path way) (content : ByteArray) :
    (files.put way content).Leads path way := by
  have hwrite : files.locate path (namesToWrite path) = .ok (.file way) := by
    rw [h.namesToWrite_eq]
    exact h
  exact locate_put hwrite rfl content

theorem Leads.read_put {path : String} (h : files.Leads path way)
    (hopen : (files.lock way).toRead = .ok ()) (content : ByteArray) :
    (files.put way content).read path = .ok content := by
  refine (h.put content).read.2 ⟨?_, get?_put_self files way content⟩
  rwa [lock_put]

/-- What is written to: a place that may be written. -/
theorem write_eq_ok {files' : Files} {path : String} {content : ByteArray}
    (h : files.write path content = .ok files') :
    ∃ place way, files.locate path (namesToWrite path) = .ok place ∧ place.way? = some way ∧
      (files.lock way).toWrite = .ok () ∧ files' = files.put way content := by
  unfold write at h
  cases hlocate : files.locate path (namesToWrite path) with
  | error why =>
    rw [hlocate] at h
    contradiction
  | ok place =>
    rw [hlocate] at h
    cases place with
    | directory way => contradiction
    | file way =>
      obtain ⟨_, hopen, hput⟩ := Json.bind_eq_ok.1 h
      exact ⟨_, way, rfl, rfl, hopen, (Except.ok.inj hput).symm⟩
    | free way =>
      obtain ⟨_, -, h⟩ := Json.bind_eq_ok.1 h
      obtain ⟨_, hopen, hput⟩ := Json.bind_eq_ok.1 h
      exact ⟨_, way, rfl, rfl, hopen, (Except.ok.inj hput).symm⟩

/-- Whether a file can be written does not depend on its content. -/
theorem write_error {path : String} {content : ByteArray} {why : SystemError}
    (h : files.write path content = .error why) (other : ByteArray) :
    files.write path other = .error why := by
  have hput {ε : Type} (x : Except ε Unit) (way : List String) {e : ε}
      (h : (do x; return files.put way content) = Except.error e) :
      (do x; return files.put way other) = Except.error e := by
    cases x with
    | error why => exact h
    | ok _ => contradiction
  unfold write at h ⊢
  split at h
  · exact h
  · exact h
  · next way _ =>
    cases hdir : (files.lock way.dropLast).toWrite with
    | error why =>
      rw [hdir] at h
      exact h
    | ok _ =>
      rw [hdir] at h
      exact hput _ way h
  · next way _ => exact hput _ way h

/-- After a file is written, it has the content that was written. -/
theorem read_write {files' : Files} {path : String} {content : ByteArray}
    (h : files.write path content = .ok files') : files'.read path = .ok content := by
  obtain ⟨place, way, hlocate, hway, hopen, rfl⟩ := write_eq_ok h
  have hleads : (files.put way content).Leads path way := locate_put hlocate hway content
  refine hleads.read.2 ⟨?_, get?_put_self files way content⟩
  rw [lock_put]
  exact Lock.toRead_of_toWrite hopen

end Files

end SpanWire.Cli
