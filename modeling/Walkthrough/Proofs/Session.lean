import Mathlib.Tactic.SplitIfs
import Walkthrough.Proofs.Scene
import Walkthrough.Session
import Walkthrough.Url
/-!
Errors of a browser, which are all that a page and its browser can be expected to raise: what they
are asked to do ends with a value or with such an error, and a session that meets none but these can
be closed. Whatever a browser answers, its session leaves the files alone.
-/

namespace Walkthrough

/-- What an action fails with is an error of the browser. -/
def Act.Mild {σ α : Type} (a : Act σ α) : Prop := ∀ sc f, (a sc).1 = .error f → f.isBrowser = true

namespace Act.Mild

variable {ι σ α β : Type} {a : Act σ α}

theorem of_ok (h : ∀ sc, ∃ x, (a sc).1 = .ok x) : a.Mild := by
  intro sc f hf
  obtain ⟨x, hx⟩ := h sc
  rw [hx] at hf
  cases hf

theorem bind {f : α → Act σ β} (ha : a.Mild)
    (hf : ∀ x sc sc', a sc = (.ok x, sc') → (f x).Mild) : (a >>= f).Mild := by
  intro sc g hg
  obtain h | ⟨x, sc', hx, h⟩ := Attempt.bind_cause hg
  · exact ha sc g h
  · exact hf x sc sc' hx sc' g h

end Act.Mild

/-- A page whose faults are errors of a browser, and whose URLs can be read. -/
structure Page.Browses {ι σ : Type} (page : Page ι σ) : Prop where
  fault : ∀ call s f, (page.answer call s).1 = .error f → f.isBrowser = true
  url : ∀ s url, (page.answer .url s).1 = .ok url → ∃ u, Url.parse url = .ok u

theorem Page.Browses.ask {ι σ : Type} {page : Page ι σ} (h : page.Browses) (call : PageCall) :
    (Act.ask page call).Mild := fun sc f hf => h.fault call sc.page f hf

/-- A session whose opening and closing leave every file and directory as it was. -/
structure Session.Fileless {σ : Type} (s : Session σ) : Prop where
  opening : ∀ o, Walkthrough.Fileless (s.opening o)
  closing : Walkthrough.Fileless s.closing

namespace Browser

variable {σ : Type} {b : Browser σ}

/-- A browser whose faults are its own errors, and whose driver can be stopped, is shut down. -/
theorem shutdown_ok (hb : ∀ call s f, (b.answer call s).1 = .error f → f.isBrowser = true)
    (hstop : ∀ s, (b.answer .stop s).1 = .ok ()) (sc : Scene σ) : (b.shutdown sc).1 = .ok () := by
  have hcall (call : SessionCall) : (b.call call).Mild := fun sc => hb call sc.page
  have hboth : b.closeBoth.Mild := by
    dsimp only [closeBoth]
    refine .bind (.of_ok fun s => ⟨s, rfl⟩) fun s _ _ _ => ?_
    have hbrowser : Act.Mild (get >>= fun s : Scene σ =>
        if s.handles.browser = true then b.call .closeBrowser else pure ()) := by
      refine .bind (.of_ok fun s => ⟨s, rfl⟩) fun s _ _ _ => ?_
      split_ifs
      · exact hcall _
      · exact .of_ok fun _ => ⟨(), rfl⟩
    split_ifs
    · exact .bind (hcall _) fun _ _ _ _ => hbrowser
    · exact hbrowser
  have hquiet (sc : Scene σ) : (b.closeQuietly sc).1 = .ok () := by
    have hmild := hboth sc
    unfold closeQuietly
    rw [Attempt.bind_ok (Attempt.outcome_apply _ sc)]
    generalize (b.closeBoth sc).1 = r at hmild
    rcases r with f | ⟨⟩
    · simp only [hmild f rfl]
      rfl
    · rfl
  have hrelease (sc : Scene σ) : ∃ sc', b.release sc = (.ok (), sc') := by
    dsimp only [release]
    rw [Attempt.bind_ok (Attempt.get_apply sc)]
    split_ifs
    · have hstopped : (b.call .stop sc).1 = .ok () := hstop sc.page
      rw [Attempt.bind_of_ok hstopped]
      exact ⟨_, rfl⟩
    · exact ⟨_, rfl⟩
  obtain ⟨sc', h⟩ := hrelease (b.closeQuietly sc).2
  rw [shutdown, Attempt.thenAlways_apply, h, hquiet]

variable (b)

theorem fileless_call (c : SessionCall) : Fileless (b.call c) := fun _ => rfl

theorem fileless_hold (f : Handles → Handles) : Fileless (hold f : Act σ Unit) := fun _ => rfl

theorem fileless_get : Fileless (get : Act σ (Scene σ)) := fun _ => rfl

theorem fileless_openAll (o : BrowserOptions) : Fileless (b.openAll o) :=
  .bind (fileless_call b _) fun _ => .bind (fileless_hold _) fun _ =>
    .bind (fileless_call b _) fun _ => .bind (fileless_hold _) fun _ =>
      .bind (fileless_call b _) fun _ => .bind (fileless_hold _) fun _ =>
        .bind (fileless_call b _) fun _ => .bind (fileless_call b _) fun _ =>
          .bind (fileless_call b _) fun _ => fileless_hold _

theorem fileless_shutdown : Fileless b.shutdown := by
  have hbrowser : Fileless (get >>= fun sc : Scene σ =>
      if sc.handles.browser = true then b.call .closeBrowser else pure ()) := by
    apply Fileless.bind fileless_get
    intro sc
    split_ifs
    · exact fileless_call b _
    · exact .pure _
  have hboth : Fileless b.closeBoth := by
    dsimp only [closeBoth]
    apply Fileless.bind fileless_get
    intro sc
    split_ifs
    · exact .bind (fileless_call b _) fun _ => hbrowser
    · exact hbrowser
  have hquiet : Fileless b.closeQuietly := by
    apply Fileless.bind hboth.outcome
    intro r
    rcases r with f | ⟨⟩
    · dsimp only
      split_ifs
      · exact .log _ _ _
      · exact .throw _
    · exact .pure _
  have hrelease : Fileless b.release := by
    dsimp only [release]
    apply Fileless.bind fileless_get
    intro sc
    split_ifs
    · exact .bind (fileless_call b _) fun _ => fileless_hold _
    · exact fileless_hold _
  exact hquiet.thenAlways hrelease

theorem fileless_opening (o : BrowserOptions) : Fileless (b.opening o) := by
  apply Fileless.bind (fileless_openAll b o).outcome
  intro r
  rcases r with f | ⟨⟩
  · exact .bind (fileless_shutdown b) fun _ => .throw _
  · exact .log _ _ _

/-- Whatever a browser answers, its session leaves every file and directory as it was. -/
theorem session_fileless : b.session.Fileless where
  opening o := by
    apply Fileless.bind (fileless_opening b o)
    intro _
    apply Fileless.bind fileless_get
    intro sc
    split_ifs
    · exact .throw _
    · exact .pure _
  closing := fileless_shutdown b

end Browser

end Walkthrough
