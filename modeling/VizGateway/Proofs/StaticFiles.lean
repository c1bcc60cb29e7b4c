import VizGateway.StaticPath

/-!
# Static files stay below their root

Of what a request's path becomes, the check for `..` on the decoded text is what counts: without
one, normalising, stripping slashes and joining keep every name of the root in front
(`locate_join`). So a response depends on nothing but the files below the root.
-/

namespace VizGateway

open PosixPath Text

namespace StaticFiles

/-- An absolute path in normal form that leads to the root or below it, without a way up. -/
structure Confined (rootAbs p : String) : Prop where
  absolute : isAbsolute p = true
  normalised : normalize p = p
  within : locate rootAbs <+: locate p
  no_up : ".." ∉ segments p

theorem up_notMem_wrap {a x b : String} (ha : a = "" ∨ a = "/") (hb : b = "" ∨ b = "/")
    (h : ".." ∉ segments x) : ".." ∉ segments (a ++ x ++ b) := by
  have hempty : segments "" = [""] := rfl
  have hfront : ".." ∉ segments (a ++ x) := by
    rcases ha with rfl | rfl
    · rwa [String.empty_append]
    · have hcut := segments_append "" x
      rw [String.empty_append, hempty] at hcut
      rw [hcut]
      simpa using h
  rcases hb with rfl | rfl
  · rwa [String.append_empty]
  · have hcut := segments_append (a ++ x) ""
    rw [String.append_empty, hempty] at hcut
    rw [hcut]
    simpa using hfront

/-- Normalising brings in no way up. -/
theorem up_notMem_normalize {p : String} (h : ".." ∉ segments p) :
    ".." ∉ segments (normalize p) := by
  rcases normalize_forms h with hp | hp | hp | ⟨names, a, b, hne, hnames, ha, hb, hp⟩
  · rw [hp]
    decide
  · rw [hp]
    decide
  · rw [hp]
    decide
  · rw [hp]
    refine up_notMem_wrap ha hb ?_
    rw [segments_intercalate hnames hne]
    exact fun hmem => (hnames _ hmem).ne_up rfl

/-- What is left behind the leading slashes is empty for the top alone. -/
theorem dropSlashes_ne_empty {p : String} (h : ".." ∉ segments p) (htop : normalize p ≠ "/") :
    dropSlashes (normalize p) ≠ "" := by
  have hall : dropSlashes (normalize p) = "" → ∀ c ∈ (normalize p).toList, c = '/' := by
    intro hempty c hc
    have hnil := congrArg String.toList hempty
    rw [dropSlashes, String.toList_ofList, String.toList_empty, List.dropWhile_eq_nil_iff] at hnil
    simpa using hnil c hc
  intro hempty
  rcases normalize_forms h with hp | hp | hp | ⟨names, a, b, hne, hnames, -, -, hp⟩
  · exact htop hp
  · exact absurd (hall hempty '.' (by simp [hp])) (by decide)
  · exact absurd (hall hempty '.' (by simp [hp])) (by decide)
  · obtain ⟨s, rest, rfl⟩ := List.exists_cons_of_ne_nil hne
    obtain ⟨c, hc⟩ := List.exists_mem_of_ne_nil s.toList
      (by simpa using (hnames s List.mem_cons_self).ne_empty)
    have hmem : s ∈ segments (String.intercalate "/" (s :: rest)) := by
      rw [segments_intercalate hnames hne]
      exact List.mem_cons_self
    have hc' := mem_split hmem hc
    refine hc'.2 (hall hempty c ?_)
    rw [hp, String.toList_append, String.toList_append]
    exact List.mem_append_left _ (List.mem_append_right _ hc'.1)

/-- Joined below an absolute root, a path without a way up leads below it. -/
theorem locate_join {names : List String} (hnames : ∀ s ∈ names, IsName s) {rel : String}
    (hne : rel ≠ "") (hup : ".." ∉ segments rel) :
    ∃ p, join [absText names false, rel] = normalize p ∧ isAbsolute p = true ∧
      names <+: locate p := by
  refine ⟨absText names false ++ "/" ++ rel, ?_, ?_, ?_⟩
  · have hroot : absText names false ≠ "" := by
      intro hempty
      have habs : isAbsolute (absText names false) = true := isAbsolute_absText
      rw [hempty] at habs
      cases habs
    have hfilter : [absText names false, rel].filter (· ≠ "") = [absText names false, rel] := by
      simp [hroot, hne]
    have hjoined : String.intercalate "/" [absText names false, rel] =
        absText names false ++ "/" ++ rel := by
      rw [← String.toList_inj]
      simp
    unfold join
    simp only [hfilter, hjoined]
    rw [if_neg]
    intro hempty
    exact hne (String.append_eq_empty_iff.1 hempty).2
  · rw [absText, String.append_assoc, String.append_assoc, String.append_assoc]
    exact startsWith_append _ _
  · have hlocate : locate (absText names false ++ "/" ++ rel) =
        (segments rel).foldl enter (locate (absText names false)) := by
      rw [locate, segments_append, List.foldl_append]
      rfl
    rw [hlocate, locate_absText hnames, foldl_enter_append hup]
    exact List.prefix_append _ _

theorem confined_normalize {rootAbs p : String} (hp : isAbsolute p = true)
    (hwithin : locate rootAbs <+: locate p) : Confined rootAbs (normalize p) := by
  have hnames := isName_locate p
  rw [normalize_of_absolute hp]
  exact ⟨isAbsolute_absText, normalize_absText hnames, by rwa [locate_absText hnames],
    up_notMem_segments_absText hnames⟩

theorem confined_join (cwd : WorkingDir) (root : String) {rel : String} (hne : rel ≠ "")
    (hup : ".." ∉ segments rel) : Confined (resolve cwd root) (join [resolve cwd root, rel]) := by
  have hnames := isName_locate (fromTop cwd root)
  rw [resolve_eq]
  obtain ⟨p, hjoin, habs, hwithin⟩ := locate_join hnames hne hup
  rw [hjoin]
  exact confined_normalize habs (by rwa [locate_absText hnames])

theorem confined_resolveStaticPath {cwd : WorkingDir} {urlPath root : String} {f : StaticFile}
    (h : resolveStaticPath cwd urlPath root = some f) :
    Confined (resolve cwd root) f.absPath := by
  unfold resolveStaticPath at h
  rcases hdecoded : decodeURIComponent (beforeChar urlPath '?') with _ | decoded
  · simp [hdecoded] at h
  · simp only [hdecoded] at h
    by_cases hup : ".." ∈ split decoded '/'
    · rw [if_pos hup] at h
      cases h
    rw [if_neg hup] at h
    generalize hrel : (if normalize decoded = "/" ∨ normalize decoded = "" then "index.html"
      else dropSlashes (normalize decoded)) = rel at h
    have hconfined : Confined (resolve cwd root) (join [resolve cwd root, rel]) := by
      by_cases htop : normalize decoded = "/" ∨ normalize decoded = ""
      · rw [if_pos htop] at hrel
        subst hrel
        exact confined_join cwd root (by decide) (by decide)
      · rw [if_neg htop] at hrel
        subst hrel
        have hclean := up_notMem_normalize hup
        exact confined_join cwd root (dropSlashes_ne_empty hup fun hp => htop (.inl hp))
          fun hmem => hclean ((segments_dropSlashes _).subset hmem)
    split at h
    · cases h
    · obtain rfl := Option.some.inj h
      exact hconfined

end StaticFiles

open StaticFiles

/-- A URL is forbidden or means a path below the root, and no response depends on any other. -/
theorem static_files_confined (cwd : WorkingDir) (root : String) :
    (∀ urlPath : String, resolveStaticPath cwd urlPath root = none ∨
      ∃ f, resolveStaticPath cwd urlPath root = some f ∧
        Confined (resolve cwd root) f.absPath) ∧
    ∀ (req : StaticRequest) (readFile readFile' : String → Option (List UInt8)),
      (∀ p, Confined (resolve cwd root) p → readFile p = readFile' p) →
        serveStatic readFile cwd req root = serveStatic readFile' cwd req root := by
  refine ⟨fun urlPath => ?_, fun req readFile readFile' hagree => ?_⟩
  · rcases h : resolveStaticPath cwd urlPath root with _ | f
    · exact .inl rfl
    · exact .inr ⟨f, rfl, confined_resolveStaticPath h⟩
  · unfold serveStatic
    rcases h : resolveStaticPath cwd (req.url.getD "/") root with _ | f
    · rfl
    · simp only [hagree f.absPath (confined_resolveStaticPath h)]

def sampleCwd : WorkingDir := ⟨"/app", rfl⟩

example : resolveStaticPath sampleCwd "/a//%2e/b.js?v=2" "site" =
    some ⟨"/app/site/a/b.js", "text/javascript; charset=utf-8"⟩ := by decide

example : resolveStaticPath sampleCwd "/%2e%2e/keystore.json" "site" = none := by decide

theorem static_files_confined_sample :
    serveStatic (fun p => if p = "/app/site/index.html" then some [60] else none) sampleCwd
        ⟨some "/", "GET"⟩ "site" =
      serveStatic (fun p => if p = "/app/keystore.json" then some [123]
        else if p = "/app/site/index.html" then some [60] else none) sampleCwd
        ⟨some "/", "GET"⟩ "site" := by
  refine (static_files_confined sampleCwd "site").2 ⟨some "/", "GET"⟩ _ _ fun p hp => ?_
  rw [if_neg (c := p = "/app/keystore.json")]
  rintro rfl
  exact absurd hp.within (by decide)

end VizGateway
