/-
Where the rows of the application come from.  Every manifest and every licence in
its tables was written by a call that presented an operator's token and a
signature that verified under the keys trusted at that moment, one row for each
such call that was answered, in their order.
-/
import NetplexSupport.App.Separation
import NetplexSupport.Licensing.Registry
import NetplexSupport.Releases.Registry

namespace NetplexSupport

open Py

section

variable {F : Type} [PyFloat F] [Interpreter]

/-! ### The registries -/

/-- The upload a call makes, when it is answered. -/
def answeredUploads (host : Host) (s : App) : Call F → List (Upload F)
  | .upload request body draw =>
      let e : Upload F := ⟨s.settings, request, body, draw⟩
      if (uploadStep host.crypto host.backend s.releases e).2.isOk then [e] else []
  | _ => []

/-- The registration a call makes, when it is answered, and its request. -/
def answeredRegistrations (host : Host) (s : App) : Call F → List (Request × Registration)
  | .register request token now draw =>
      if (postRegister F host.crypto host.backend s.settings request s.licenses token now
          draw).isOk then [(request, ⟨s.settings, now, token, draw⟩)]
      else []
  | _ => []

/-- An operator uploaded the manifest of this row. -/
def Published (host : Host) (e : Upload F) (row : ReleaseManifest) : Prop :=
  requireAdmin e.settings e.request = .ok () ∧ Publishes host.crypto e row

variable (F) in
/-- An operator registered the licence of this row. -/
def Licensed (host : Host) (e : Request × Registration) (row : LicenseToken) : Prop :=
  requireAdmin e.2.settings e.1 = .ok () ∧ e.2.token.length ≤ tokenMaxLength ∧
    Registers F host.crypto e.2 row ∧ row.fits host.backend = true

theorem uploadStep_published (host : Host) (rows : List ReleaseManifest) (e : Upload F) :
    (∃ row answer, Published host e row ∧
      uploadStep host.crypto host.backend rows e = (rows ++ [row], .ok answer)) ∨
    ∃ failure, uploadStep host.crypto host.backend rows e = (rows, .error failure) := by
  rcases hgate : requireAdmin e.settings e.request with failure | _
  · right
    exact ⟨failure, by rw [uploadStep, hgate]; rfl⟩
  · rcases uploadStep_journal host.crypto host.backend rows e with
      ⟨row, answer, hrow, hstep⟩ | hfailed
    · exact Or.inl ⟨row, answer, ⟨hgate, hrow⟩, hstep⟩
    · exact Or.inr hfailed

/-- A call appends the row of the upload it makes. -/
theorem releases_serve (host : Host) (s : App) (c : Call F) :
    ∃ rows, (App.serve host s c).1.releases = s.releases ++ rows ∧
      List.Forall₂ (Published host) (answeredUploads host s c) rows := by
  cases c with
  | upload request body draw =>
      have hrows : (App.serve host s (.upload request body draw)).1.releases =
          (uploadStep host.crypto host.backend s.releases
            ⟨s.settings, request, body, draw⟩).1 := rfl
      rw [hrows, answeredUploads]
      rcases uploadStep_published host s.releases ⟨s.settings, request, body, draw⟩ with
        ⟨row, answer, hrow, hstep⟩ | ⟨failure, hstep⟩
      · rw [hstep]
        exact ⟨[row], rfl, .cons hrow .nil⟩
      · rw [hstep]
        exact ⟨[], (List.append_nil _).symm, .nil⟩
  | _ => exact ⟨[], (List.append_nil _).symm, .nil⟩

theorem licensed_of_postRegister {host : Host} {settings : Settings} {request : Request}
    {rows rows' : List LicenseToken} {token : Str} {now : Int} {draw : RowDraw}
    {answer : RegisterResult}
    (h : postRegister F host.crypto host.backend settings request rows token now draw =
      .ok (answer, rows')) :
    ∃ row, Licensed F host (request, ⟨settings, now, token, draw⟩) row ∧
      rows' = rows ++ [row] := by
  obtain ⟨_, hgate, h⟩ := bind_eq_ok.mp h
  by_cases hlong : tokenMaxLength < token.length
  · rw [if_pos hlong] at h
    cases h
  · rw [if_neg hlong] at h
    obtain ⟨trust, claims, kid, expiry, htrust, hgood, hfits, _, rfl⟩ :=
      registerLicense_eq_ok_iff.mp h
    exact ⟨_, ⟨hgate, not_lt.mp hlong, ⟨trust, claims, kid, expiry, htrust, hgood, rfl⟩,
      hfits⟩, rfl⟩

/-- A call appends the row of the registration it makes. -/
theorem licenses_serve (host : Host) (s : App) (c : Call F) :
    ∃ rows, (App.serve host s c).1.licenses = s.licenses ++ rows ∧
      List.Forall₂ (Licensed F host) (answeredRegistrations host s c) rows := by
  cases c with
  | register request token now draw =>
      have hrows : (App.serve host s (.register (F := F) request token now draw)).1.licenses =
          (orKeep s.licenses (postRegister F host.crypto host.backend s.settings request
            s.licenses token now draw)).1 := rfl
      rw [hrows, answeredRegistrations]
      rcases hpost : postRegister F host.crypto host.backend s.settings request s.licenses token
          now draw with failure | ⟨answer, rows'⟩
      · exact ⟨[], (List.append_nil _).symm, .nil⟩
      · obtain ⟨row, hrow, rfl⟩ := licensed_of_postRegister hpost
        exact ⟨[row], rfl, .cons hrow .nil⟩
  | _ => exact ⟨[], (List.append_nil _).symm, .nil⟩

/-- In every run the two registries grow by the answered uploads and
registrations, row by row and in their order; whatever else is called, nothing is
rewritten and nothing is lost. -/
theorem registries_recorded {host : Host} (start : App) (calls : List (Call F)) :
    ∃ releases licenses,
      (Transition.after (App.serve host) start calls).releases =
        start.releases ++ releases ∧
      List.Forall₂ (Published host)
        (Transition.emitted (App.serve host) (answeredUploads host) start calls) releases ∧
      (Transition.after (App.serve host) start calls).licenses =
        start.licenses ++ licenses ∧
      List.Forall₂ (Licensed F host)
        (Transition.emitted (App.serve host) (answeredRegistrations host) start calls)
        licenses := by
  obtain ⟨releases, hreleases, hpublished⟩ :=
    Transition.ledger_after (releases_serve host) start calls
  obtain ⟨licenses, hlicenses, hlicensed⟩ :=
    Transition.ledger_after (licenses_serve host) start calls
  exact ⟨releases, licenses, hreleases, hpublished, hlicenses, hlicensed⟩

end

end NetplexSupport
