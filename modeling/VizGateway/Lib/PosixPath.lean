import VizGateway.Lib.Separated

/-!
# Paths

Slash-separated paths and the operations that rewrite them by their text alone. A directory is the
list of names that lead to it from the top; without links `locate` is where a path leads. An
absolute path is its own normal form exactly as `absText` writes it (`normalize_of_absolute`,
`normalize_absText`).
-/

namespace PosixPath

open Text

/-- What stands between the slashes. -/
def segments (p : String) : List String := split p '/'

def isAbsolute (p : String) : Bool := startsWith p "/"

/-- One segment followed from a directory. -/
def enter (dir : List String) (seg : String) : List String :=
  if seg = "" ∨ seg = "." then dir else if seg = ".." then dir.dropLast else dir ++ [seg]

/-- Where an absolute path leads. -/
def locate (p : String) : List String := (segments p).foldl enter []

/-- One segment of `normalizeString`: a `..` removes the name before it; with none before it stays
if the path may lead above its start. -/
def reduceSegment (allowAboveRoot : Bool) (acc : List String) (seg : String) : List String :=
  if seg = "" ∨ seg = "." then acc
  else if seg = ".." then
    if acc ≠ [] ∧ acc.getLast? ≠ some ".." then acc.dropLast
    else if allowAboveRoot then acc ++ [".."] else acc
  else acc ++ [seg]

def normalizeString (p : String) (allowAboveRoot : Bool) : String :=
  String.intercalate "/" ((segments p).foldl (reduceSegment allowAboveRoot) [])

/-- `path.normalize`; a slash at the end stays. -/
def normalize (p : String) : String :=
  if p = "" then "."
  else
    let path := normalizeString p (!isAbsolute p)
    if path = "" then if isAbsolute p then "/" else if endsWith p "/" then "./" else "."
    else (if isAbsolute p then "/" else "") ++ path ++ (if endsWith p "/" then "/" else "")

/-- `path.join`. -/
def join (parts : List String) : String :=
  let joined := String.intercalate "/" (parts.filter (· ≠ ""))
  if joined = "" then "." else normalize joined

/-- A process's working directory, which is absolute. -/
structure WorkingDir where
  path : String
  absolute : isAbsolute path = true

/-- A path as it reads from the top. -/
def fromTop (cwd : WorkingDir) (p : String) : String :=
  if p = "" then cwd.path ++ "/"
  else if isAbsolute p then p ++ "/"
  else cwd.path ++ "/" ++ (p ++ "/")

/-- `path.resolve` of one path. -/
def resolve (cwd : WorkingDir) (p : String) : String :=
  "/" ++ normalizeString (fromTop cwd p) false

/-- `path.extname`. -/
def extname (p : String) : String :=
  let base := (((segments p).filter (· ≠ "")).getLast?).getD ""
  let tail := base.toList.reverse.takeWhile (· ≠ '.')
  let dot := base.toList.length - (tail.length + 1)
  if base = ".." ∨ tail.length = base.toList.length ∨ dot = 0 then "" else dropStr base dot

example : normalize "/a//b/./../c/" = "/a/c/" := by decide

example : join ["/srv/site", "a/../b"] = "/srv/site/b" := by decide

example : extname "/srv/site/app.min.js" = ".js" ∧ extname "/srv/.env" = "" := by decide

/-! ## Names -/

/-- A segment that leads into a directory. -/
structure IsName (s : String) : Prop where
  ne_empty : s ≠ ""
  ne_dot : s ≠ "."
  ne_up : s ≠ ".."
  slash : '/' ∉ s.toList

variable {p q : String} {names : List String} {trailing : Bool}

theorem segments_append (a b : String) : segments (a ++ "/" ++ b) = segments a ++ segments b := by
  have hcons : (a ++ "/" ++ b).toList = a.toList ++ '/' :: b.toList := by simp
  rw [segments, split, hcons, List.splitOn_append_cons_self, List.map_append]
  rfl

theorem slash_of_mem_segments {s : String} (h : s ∈ segments p) : '/' ∉ s.toList :=
  fun hs => (mem_split h hs).2 rfl

theorem segments_of_notMem {s : String} (h : '/' ∉ s.toList) : segments s = [s] :=
  split_of_notMem h

/-- Names with slashes between them are cut into the names. -/
theorem segments_intercalate (h : ∀ s ∈ names, IsName s) (hne : names ≠ []) :
    segments (String.intercalate "/" names) = names :=
  split_intercalate (c := '/') (fun s hs => (h s hs).slash) hne

/-- Leading slashes removed, the segments left are the last ones. -/
theorem segments_dropSlashes (p : String) :
    segments (String.ofList (p.toList.dropWhile (· = '/'))) <:+ segments p := by
  have key : ∀ l : List Char, segments (String.ofList (l.dropWhile (· = '/'))) <:+
      segments (String.ofList l) := by
    intro l
    induction l with
    | nil => exact List.suffix_rfl
    | cons c l ih =>
      by_cases hc : c = '/'
      · subst hc
        have hslash : String.ofList ('/' :: l) = "" ++ "/" ++ String.ofList l := by
          rw [← String.toList_inj]
          simp
        rw [List.dropWhile_cons_of_pos (by simp), hslash, segments_append]
        exact ih.trans (List.suffix_append _ _)
      · rw [List.dropWhile_cons_of_neg (by simpa using hc)]
  have := key p.toList
  rwa [String.ofList_toList] at this

/-! ## Following segments -/

theorem foldl_enter_append {segs : List String} (h : ".." ∉ segs) (dir : List String) :
    segs.foldl enter dir = dir ++ segs.filter fun s => s ≠ "" ∧ s ≠ "." := by
  induction segs generalizing dir with
  | nil => simp
  | cons s segs ih =>
    rw [List.mem_cons, not_or] at h
    rw [List.foldl_cons, ih h.2]
    by_cases hs : s = "" ∨ s = "."
    · rw [enter, if_pos hs, List.filter_cons_of_neg (by rcases hs with rfl | rfl <;> simp)]
    · rw [enter, if_neg hs, if_neg (Ne.symm h.1),
        List.filter_cons_of_pos (by simpa using not_or.1 hs), List.append_assoc]
      rfl

theorem isName_foldl_enter {segs : List String} (hsegs : ∀ s ∈ segs, '/' ∉ s.toList)
    {dir : List String} (hdir : ∀ s ∈ dir, IsName s) : ∀ s ∈ segs.foldl enter dir, IsName s := by
  induction segs generalizing dir with
  | nil => exact hdir
  | cons s segs ih =>
    rw [List.forall_mem_cons] at hsegs
    refine ih hsegs.2 fun t ht => ?_
    unfold enter at ht
    split_ifs at ht with hs hup
    · exact hdir t ht
    · exact hdir t (List.mem_of_mem_dropLast ht)
    · rcases List.mem_append.1 ht with ht | ht
      · exact hdir t ht
      · obtain rfl := List.mem_singleton.1 ht
        exact ⟨fun h => hs (.inl h), fun h => hs (.inr h), hup, hsegs.1⟩

theorem isName_locate (p : String) : ∀ s ∈ locate p, IsName s :=
  isName_foldl_enter (fun _ => slash_of_mem_segments) nofun

/-- Where nothing lies above, a `..` never stays. -/
theorem foldl_reduceSegment {segs dir : List String} (hdir : ".." ∉ dir) :
    segs.foldl (reduceSegment false) dir = segs.foldl enter dir := by
  induction segs generalizing dir with
  | nil => rfl
  | cons s segs ih =>
    have hstep : reduceSegment false dir s = enter dir s := by
      by_cases hs : s = "" ∨ s = "."
      · rw [reduceSegment, enter, if_pos hs, if_pos hs]
      by_cases hup : s = ".."
      · rw [reduceSegment, enter, if_neg hs, if_neg hs, if_pos hup, if_pos hup]
        rcases List.eq_nil_or_concat dir with rfl | ⟨init, d, rfl⟩
        · rfl
        · rw [if_pos ⟨by simp, by simpa using fun h => hdir (by simp [h])⟩]
      · rw [reduceSegment, enter, if_neg hs, if_neg hs, if_neg hup, if_neg hup]
    rw [List.foldl_cons, List.foldl_cons, hstep]
    refine ih fun hmem => ?_
    unfold enter at hmem
    split_ifs at hmem with hs hup
    · exact hdir hmem
    · exact hdir (List.mem_of_mem_dropLast hmem)
    · rcases List.mem_append.1 hmem with hmem | hmem
      · exact hdir hmem
      · exact hup (List.mem_singleton.1 hmem).symm

theorem normalizeString_false (p : String) :
    normalizeString p false = String.intercalate "/" (locate p) :=
  congrArg (String.intercalate "/") (foldl_reduceSegment (by simp))

/-- Without a `..` normalising keeps the names. -/
theorem foldl_reduceSegment_of_notMem {segs : List String} (h : ".." ∉ segs) (up : Bool)
    (dir : List String) :
    segs.foldl (reduceSegment up) dir = dir ++ segs.filter fun s => s ≠ "" ∧ s ≠ "." := by
  rw [← foldl_enter_append h]
  induction segs generalizing dir with
  | nil => rfl
  | cons s segs ih =>
    rw [List.mem_cons, not_or] at h
    have hstep : reduceSegment up dir s = enter dir s := by
      unfold reduceSegment enter
      rw [if_neg (Ne.symm h.1), if_neg (Ne.symm h.1)]
    rw [List.foldl_cons, List.foldl_cons, hstep, ih h.2]

/-! ## Normal forms -/

/-- The absolute path of a directory, with a slash at the end or without. -/
def absText (names : List String) (trailing : Bool) : String :=
  "/" ++ String.intercalate "/" names ++ (if names ≠ [] ∧ trailing = true then "/" else "")

theorem intercalate_eq_empty (h : ∀ s ∈ names, IsName s) :
    String.intercalate "/" names = "" ↔ names = [] := by
  constructor
  · intro hempty
    by_contra hne
    have hsegs := segments_intercalate h hne
    rw [hempty] at hsegs
    have : names = [""] := hsegs.symm
    exact (h "" (by simp [this])).ne_empty rfl
  · rintro rfl
    rfl

theorem normalize_of_absolute (h : isAbsolute p = true) :
    normalize p = absText (locate p) (endsWith p "/") := by
  have hne : p ≠ "" := by
    rintro rfl
    cases h
  unfold normalize absText
  simp only [h, hne, Bool.not_true, normalizeString_false, intercalate_eq_empty (isName_locate p),
    if_true, if_false]
  by_cases hnil : locate p = []
  · simp [hnil]
  · simp [hnil]

/-- What normalising leaves of a path that never leads up. -/
theorem normalize_forms (h : ".." ∉ segments p) :
    normalize p = "/" ∨ normalize p = "." ∨ normalize p = "./" ∨
      ∃ names a b, names ≠ [] ∧ (∀ s ∈ names, IsName s) ∧ (a = "" ∨ a = "/") ∧
        (b = "" ∨ b = "/") ∧ normalize p = a ++ String.intercalate "/" names ++ b := by
  have hkept := foldl_reduceSegment_of_notMem h (!isAbsolute p) []
  rw [List.nil_append] at hkept
  have hnames : ∀ s ∈ (segments p).filter fun s => s ≠ "" ∧ s ≠ ".", IsName s := by
    intro s hs
    obtain ⟨hmem, hs⟩ := List.mem_filter.1 hs
    rw [decide_eq_true_eq] at hs
    exact ⟨hs.1, hs.2, fun hup => h (hup ▸ hmem), slash_of_mem_segments hmem⟩
  unfold normalize normalizeString
  simp only [hkept]
  generalize (segments p).filter (fun s => decide (s ≠ "" ∧ s ≠ ".")) = names at hnames ⊢
  by_cases hp : p = ""
  · simp [hp]
  rw [if_neg hp]
  by_cases hnil : names = []
  · rw [if_pos ((intercalate_eq_empty hnames).2 hnil)]
    split_ifs <;> simp
  · rw [if_neg (mt (intercalate_eq_empty hnames).1 hnil)]
    refine .inr (.inr (.inr ⟨names, _, _, hnil, hnames, ?_, ?_, rfl⟩))
    · split_ifs <;> simp
    · split_ifs <;> simp

theorem isAbsolute_absText : isAbsolute (absText names trailing) = true := by
  rw [absText, String.append_assoc]
  exact startsWith_append _ _

theorem segments_absText (h : ∀ s ∈ names, IsName s) : segments (absText names trailing) =
    "" :: (if names = [] then [""] else names ++ (if trailing = true then [""] else [])) := by
  have hfront : segments ("/" ++ String.intercalate "/" names) =
      "" :: (if names = [] then [""] else names) := by
    have := segments_append "" (String.intercalate "/" names)
    rw [String.empty_append] at this
    rw [this]
    by_cases hnil : names = []
    · subst hnil
      rfl
    · rw [segments_intercalate h hnil, if_neg hnil]
      rfl
  unfold absText
  by_cases hnil : names = []
  · rw [if_neg (by simp [hnil]), String.append_empty, hfront, if_pos hnil, if_pos hnil]
  · rcases trailing with _ | _
    · rw [if_neg (by simp), String.append_empty, hfront]
      simp [hnil]
    · have := segments_append ("/" ++ String.intercalate "/" names) ""
      rw [String.append_empty] at this
      rw [if_pos ⟨hnil, rfl⟩, this, hfront]
      simp [hnil]
      rfl

theorem up_notMem_segments_absText (h : ∀ s ∈ names, IsName s) :
    ".." ∉ segments (absText names trailing) := by
  have hup : ".." ∉ names := fun hmem => (h ".." hmem).ne_up rfl
  rw [segments_absText h]
  split_ifs <;> simp [hup]

theorem locate_absText (h : ∀ s ∈ names, IsName s) : locate (absText names trailing) = names := by
  have hnames : (names.filter fun s => s ≠ "" ∧ s ≠ ".") = names :=
    List.filter_eq_self.2 fun s hs => by simp [(h s hs).ne_empty, (h s hs).ne_dot]
  rw [locate, foldl_enter_append (up_notMem_segments_absText h), segments_absText h]
  split_ifs with hnil
  · simp [hnil]
  · simpa using hnames
  · simpa using hnames

theorem endsWith_absText (h : ∀ s ∈ names, IsName s) (hne : names ≠ []) :
    endsWith (absText names trailing) "/" = trailing := by
  unfold absText
  rcases trailing with _ | _
  · rw [if_neg (by simp), String.append_empty]
    obtain ⟨init, last, rfl⟩ := (List.eq_nil_or_concat names).resolve_left hne
    rw [Bool.eq_false_iff]
    intro hend
    have hlast := h last (by simp)
    have hsegs := segments_intercalate h hne
    obtain ⟨r, hr⟩ := endsWith_iff.1 hend
    have hcut := segments_append r ""
    rw [String.append_empty, ← hr] at hcut
    have hfull : segments ("/" ++ String.intercalate "/" (init.concat last)) =
        "" :: init.concat last := by
      have := segments_append "" (String.intercalate "/" (init.concat last))
      rw [String.empty_append] at this
      rw [this, hsegs]
      rfl
    rw [hfull] at hcut
    have hl := congrArg List.getLast? hcut
    rw [show segments "" = [""] from rfl, List.getLast?_append] at hl
    simp only [List.concat_eq_append, List.getLast?_cons, List.getLast?_append] at hl
    simp at hl
    exact hlast.ne_empty hl
  · rw [if_pos ⟨hne, rfl⟩]
    exact endsWith_append _ _

/-- Normal forms are normalised. -/
theorem normalize_absText (h : ∀ s ∈ names, IsName s) :
    normalize (absText names trailing) = absText names trailing := by
  rw [normalize_of_absolute isAbsolute_absText, locate_absText h]
  by_cases hnil : names = []
  · simp [absText, hnil]
  · rw [endsWith_absText h hnil]

theorem resolve_eq (cwd : WorkingDir) (p : String) :
    resolve cwd p = absText (locate (fromTop cwd p)) false := by
  simp [resolve, absText, normalizeString_false]

end PosixPath
