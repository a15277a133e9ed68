import Contour.Proofs.Editor.Session

/-!
# The delivery of news

Each time the text of a document changes, a session has news for the editor: the diagnostics of the
document. A session does not wait for its news to arrive, nor do news wait for one another, so that
they may overtake each other on their way. What the editor shows of a document are the diagnostics
that arrived last.

* `exists_delivery_iff`: the news of a history can arrive in every order;
* `getLast?_filter_news`: the last news that a session sends about a document are about its text;
* `shown_diagnostics`: what this means for what the editor shows. It is right if the news about a
  document keep their order, and no matter what order if there is nothing to mix up.
-/

namespace Contour.Editor

/-! ## News -/

/-- The diagnostics of a document with a text, or of one that is closed. -/
def diagnosticsIn (uri : String) : Option String → List Diagnostic
  | some text => diagnosticsOf uri text.toList
  | none => []

/-- The news that a request brings about. -/
def Request.news? : Request → Option News
  | opened uri text => some (Session.newsOf uri text)
  | changed uri (some text) => some (Session.newsOf uri text)
  | closed uri => some ⟨uri, []⟩
  | _ => none

theorem Session.news_respond (s : Session) (r : Request) : (s.respond r).news = r.news? := by
  cases r with
  | changed uri text => cases text <;> rfl
  | _ => rfl

/-- There are news about a document if something is done to it, and about what it is then. -/
theorem Request.filter_news? (r : Request) (uri : String) :
    r.news?.filter (·.uri == uri) =
      (r.effect uri).map fun content => ⟨uri, diagnosticsIn uri content⟩ := by
  cases r with
  | opened address text =>
    by_cases h : address = uri <;> simp [news?, effect, Session.newsOf, diagnosticsIn, h]
  | changed address text =>
    cases text with
    | none => rfl
    | some text =>
      by_cases h : address = uri <;> simp [news?, effect, Session.newsOf, diagnosticsIn, h]
  | closed address => by_cases h : address = uri <;> simp [news?, effect, diagnosticsIn, h]
  | _ => rfl

theorem filter_news (rs : List Request) (uri : String) :
    (rs.filterMap Request.news?).filter (·.uri == uri) =
      (rs.filterMap (Request.effect uri)).map fun content => ⟨uri, diagnosticsIn uri content⟩ := by
  rw [List.filter_filterMap, List.map_filterMap]
  exact congrArg (rs.filterMap ·) (funext fun r => r.filter_news? uri)

/-- A document is what was done to it last. -/
theorem Session.document?_after (rs : List Request) (uri : String) :
    (after {} rs).document? uri = (rs.filterMap (Request.effect uri)).getLast?.join := by
  induction rs using List.reverseRecOn with
  | nil => rfl
  | append_singleton rs r ih =>
    rw [after_concat, document?_respond, List.filterMap_append]
    cases h : r.effect uri with
    | none => simp [h, ih]
    | some content => simp [h]

/-- The last news that a session sends about a document are about its text. -/
theorem getLast?_filter_news {rs : List Request} {uri : String} {n : News}
    (h : ((rs.filterMap Request.news?).filter (·.uri == uri)).getLast? = some n) :
    n.diagnostics = diagnosticsIn uri ((Session.after {} rs).document? uri) := by
  rw [filter_news, List.getLast?_map] at h
  obtain ⟨content, hcontent, rfl⟩ := Option.map_eq_some_iff.mp h
  rw [Session.document?_after, hcontent]
  rfl

/-! ## Deliveries -/

/-- A session, with its news that are on their way and those that have arrived, the first one
first. -/
structure Post where
  session : Session := {}
  pending : List News := []
  delivered : List News := []

/-- What the editor shows of a document. -/
def Post.shown? (p : Post) (uri : String) : Option (List Diagnostic) :=
  (p.delivered.filter (·.uri == uri)).getLast?.map News.diagnostics

/-- What may have become of a session and its news after requests. -/
inductive Delivery : List Request → Post → Prop
  | start : Delivery [] {}
  | request {rs : List Request} {p : Post} (h : Delivery rs p) (r : Request) :
    Delivery (rs ++ [r])
      { p with session := (p.session.respond r).session
               pending := p.pending ++ (p.session.respond r).news.toList }
  -- any of the news on their way may be the next to arrive
  | arrive {rs : List Request} {p : Post} (h : Delivery rs p) {before after : List News} {n : News}
    (hpending : p.pending = before ++ n :: after) :
    Delivery rs { p with pending := before ++ after, delivered := p.delivered ++ [n] }

namespace Delivery

variable {rs : List Request} {p : Post} {uri : String}

theorem session_eq (h : Delivery rs p) : p.session = Session.after {} rs := by
  induction h with
  | start => rfl
  | request _ r ih => rw [Session.after_concat, ← ih]
  | arrive _ _ ih => exact ih

/-- No news are lost, doubled or made up. -/
theorem perm (h : Delivery rs p) :
    (p.delivered ++ p.pending).Perm (rs.filterMap Request.news?) := by
  induction h with
  | start => exact .refl _
  | @request rs p _ r ih =>
    have hone : [r].filterMap Request.news? = r.news?.toList := by
      cases h : r.news? <;> simp [h]
    rw [Session.news_respond, List.filterMap_append, hone, ← List.append_assoc]
    exact ih.append_right _
  | @arrive rs p _ before after n hpending ih =>
    refine List.Perm.trans ?_ ih
    rw [hpending, List.append_assoc, List.singleton_append]
    exact (List.perm_middle.symm).append_left _

/-- What is on its way can arrive in every order. -/
theorem arrive_all (h : Delivery rs p) {l : List News} (hl : l.Perm p.pending) :
    Delivery rs { p with pending := [], delivered := p.delivered ++ l } := by
  induction l generalizing p with
  | nil =>
    rw [List.append_nil, ← List.nil_perm.mp hl]
    exact h
  | cons n l ih =>
    obtain ⟨before, after, hpending⟩ := List.append_of_mem (hl.subset List.mem_cons_self)
    have hrest : l.Perm (before ++ after) := by
      rw [hpending] at hl
      exact (hl.trans List.perm_middle).cons_inv
    simpa using ih (h.arrive hpending) hrest

/-- Nothing has arrived yet. -/
theorem all_pending (rs : List Request) :
    Delivery rs { session := Session.after {} rs, pending := rs.filterMap Request.news? } := by
  induction rs using List.reverseRecOn with
  | nil => exact start
  | append_singleton rs r ih =>
    have h := ih.request r
    rw [Session.news_respond] at h
    cases hnews : r.news? <;> simpa [Session.after_concat, hnews] using h

end Delivery

/-- The news of a history can arrive in every order, and all of them do. -/
theorem exists_delivery_iff (rs : List Request) (l : List News) :
    (∃ p, Delivery rs p ∧ p.pending = [] ∧ p.delivered = l) ↔
      l.Perm (rs.filterMap Request.news?) := by
  constructor
  · rintro ⟨p, h, hpending, rfl⟩
    have hperm := h.perm
    rwa [hpending, List.append_nil] at hperm
  · intro hl
    exact ⟨_, (Delivery.all_pending rs).arrive_all hl, rfl, List.nil_append l⟩

/-! ## What is shown -/

theorem Post.exists_of_shown? {p : Post} {uri : String} {ds : List Diagnostic}
    (h : p.shown? uri = some ds) : ∃ n ∈ p.delivered, n.uri = uri ∧ n.diagnostics = ds := by
  obtain ⟨n, hlast, hds⟩ := Option.map_eq_some_iff.mp h
  obtain ⟨hmem, huri⟩ := List.mem_filter.mp (List.mem_of_getLast? hlast)
  exact ⟨n, hmem, by simpa using huri, hds⟩

/-- Any news about a document may be the last to arrive. -/
theorem exists_delivery_shown? {rs : List Request} {n : News}
    (h : n ∈ rs.filterMap Request.news?) :
    ∃ p, Delivery rs p ∧ p.pending = [] ∧ p.shown? n.uri = some n.diagnostics := by
  obtain ⟨before, after, hsplit⟩ := List.append_of_mem h
  have hperm : (before ++ after ++ [n]).Perm (rs.filterMap Request.news?) := by
    rw [hsplit]
    exact (List.perm_append_singleton n _).trans List.perm_middle.symm
  obtain ⟨p, hp, hpending, hdelivered⟩ := (exists_delivery_iff rs _).mpr hperm
  refine ⟨p, hp, hpending, ?_⟩
  rw [Post.shown?, hdelivered]
  simp

/-- The law of news. After any requests, the news that have arrived, once none are on their way, can
have arrived in any order. If the news about a document arrived in the order in which they were
sent, then the editor shows the diagnostics of its text, or none if the document is closed. In every
order this is so just if all news about the document are the same as the last. -/
theorem shown_diagnostics (rs : List Request) (uri : String) :
    (∀ l, (∃ p, Delivery rs p ∧ p.pending = [] ∧ p.delivered = l) ↔
      l.Perm (rs.filterMap Request.news?)) ∧
    (∀ p, Delivery rs p → p.pending = [] →
      p.delivered.filter (·.uri == uri) =
        (rs.filterMap Request.news?).filter (·.uri == uri) →
      ∀ r ∈ rs, (r.effect uri).isSome →
        p.shown? uri = some (diagnosticsIn uri (p.session.document? uri))) ∧
    ((∀ p, Delivery rs p → p.pending = [] → ∀ ds, p.shown? uri = some ds →
        ds = diagnosticsIn uri (p.session.document? uri)) ↔
      ∀ n ∈ rs.filterMap Request.news?, n.uri = uri →
        n.diagnostics = diagnosticsIn uri ((Session.after {} rs).document? uri)) := by
  refine ⟨exists_delivery_iff rs, ?_, ?_, ?_⟩
  · intro p hp hpending horder r hr heffect
    obtain ⟨content, hcontent⟩ := Option.isSome_iff_exists.mp heffect
    have hne : (rs.filterMap Request.news?).filter (·.uri == uri) ≠ [] := by
      rw [filter_news]
      exact List.ne_nil_of_mem
        (List.mem_map_of_mem (List.mem_filterMap.mpr ⟨r, hr, hcontent⟩))
    have hlast := List.getLast?_eq_some_getLast hne
    rw [Post.shown?, horder, hlast, Option.map_some, getLast?_filter_news hlast, hp.session_eq]
  · rintro hall n hn rfl
    obtain ⟨p, hp, hpending, hshown⟩ := exists_delivery_shown? hn
    rw [hall p hp hpending _ hshown, hp.session_eq]
  · intro hsame p hp hpending ds hshown
    obtain ⟨n, hn, huri, rfl⟩ := Post.exists_of_shown? hshown
    have hperm := (exists_delivery_iff rs p.delivered).mp ⟨p, hp, hpending, rfl⟩
    rw [hp.session_eq]
    exact hsame n (hperm.subset hn) huri

/-- A document is opened with a flaw. If the news about the flaw arrive last, the editor goes on
showing it after it was mended, and after the document was closed. -/
theorem shown_diagnostics_overtaken :
    (∃ p, Delivery [.opened "a.fya" "lol", .changed "a.fya" (some "push 1")] p ∧ p.pending = [] ∧
      (p.shown? "a.fya").map (·.map Diagnostic.message) = some ["unknown instruction \"lol\""] ∧
      diagnosticsIn "a.fya" (p.session.document? "a.fya") = []) ∧
    ∃ p, Delivery [.opened "a.fya" "lol", .closed "a.fya"] p ∧ p.pending = [] ∧
      (p.shown? "a.fya").map (·.map Diagnostic.message) = some ["unknown instruction \"lol\""] ∧
      p.session.document? "a.fya" = none := by
  refine ⟨?_, ?_⟩
  · obtain ⟨p, hp, hpending, hdelivered⟩ := ((shown_diagnostics
      [.opened "a.fya" "lol", .changed "a.fya" (some "push 1")] "a.fya").1 _).mpr
      (List.Perm.swap (Session.newsOf "a.fya" "lol") (Session.newsOf "a.fya" "push 1") [])
    refine ⟨p, hp, hpending, ?_, ?_⟩
    · rw [Post.shown?, hdelivered]
      decide +kernel
    · rw [hp.session_eq]
      decide +kernel
  · obtain ⟨p, hp, hpending, hdelivered⟩ := ((shown_diagnostics
      [.opened "a.fya" "lol", .closed "a.fya"] "a.fya").1 _).mpr
      (List.Perm.swap (Session.newsOf "a.fya" "lol") ⟨"a.fya", []⟩ [])
    refine ⟨p, hp, hpending, ?_, ?_⟩
    · rw [Post.shown?, hdelivered]
      decide +kernel
    · rw [hp.session_eq]
      decide +kernel

end Contour.Editor
