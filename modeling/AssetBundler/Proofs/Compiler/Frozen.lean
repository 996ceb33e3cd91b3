import AssetBundler.Compiler.Basic
import AssetBundler.Proofs.Failure.Outcome

/-!
Frozen compilers. They refuse every setting, and no setting but freezing itself freezes a compiler.
-/

namespace AssetBundler

/-- The settings that a compiler has a call for, with arguments that the call takes. -/
def Compiler.offers (compiler : Compiler) : Setting → Bool
  | .file _ => true
  | .directory _ _ => true
  | .scope _ options =>
      compiler.kind == .script && options.all fun option => !scopeArguments.contains option.1
  | .presets _ => compiler.kind == .script
  | .plugins _ => compiler.kind == .script
  | .bare _ => compiler.kind == .script
  | .prefixing _ _ => compiler.kind == .style
  | .freeze => false

def Setting.isFreeze : Setting → Bool
  | .freeze => true
  | _ => false

namespace Compiler

variable {compiler changed : Compiler} {setting : Setting}

/-- A frozen compiler refuses every setting that it has a call for, whatever the dialect. -/
theorem configure_frozen (frozen : compiler.frozen = true)
    (offered : compiler.offers setting = true) :
    compiler.configure setting = .error .compilerFrozen := by
  have refused : compiler.checkMutable = .error .compilerFrozen := by
    rw [checkMutable, if_pos frozen]
  have known {kind : CompilerKind} (isKind : compiler.kind = kind) (call : String) :
      compiler.checkKind kind call = .ok () := if_pos isKind
  cases setting with
  | file path => simp only [configure, addFile, refused]; rfl
  | directory path extension => simp only [configure, addDirectory, refused]; rfl
  | scope name options =>
      simp only [offers, Bool.and_eq_true, beq_iff_eq, List.all_eq_true] at offered
      have clean : compiler.checkScopeOptions options = .ok () := by
        have none : List.find? (fun option => scopeArguments.contains option.1) options = none :=
          List.find?_eq_none.mpr fun option member => by simpa using offered.2 option member
        rw [checkScopeOptions, none]
      simp only [configure, setScope, known offered.1, clean, refused]
      rfl
  | presets names =>
      simp only [configure, addPresets, known (beq_iff_eq.mp offered), refused]
      rfl
  | plugins names =>
      simp only [configure, addPlugins, known (beq_iff_eq.mp offered), refused]
      rfl
  | bare enabled =>
      simp only [configure, setBare, known (beq_iff_eq.mp offered), refused]
      rfl
  | prefixing enabled options =>
      simp only [configure, setPrefixing, known (beq_iff_eq.mp offered), refused]
      rfl
  | freeze => cases offered

theorem checkMutable_eq_ok (passed : compiler.checkMutable = .ok ()) :
    compiler.frozen = false := by
  unfold checkMutable at passed
  split at passed
  · cases passed
  · simpa using ‹¬compiler.frozen = true›

/-- A call that asks whether the compiler is open, and then does not freeze it, leaves it open. -/
theorem frozen_guarded {rest : Except Failure Compiler}
    (taken : (compiler.checkMutable >>= fun _ => rest) = .ok changed)
    (kept : rest = .ok changed → changed.frozen = compiler.frozen) :
    compiler.frozen = false ∧ changed.frozen = false := by
  obtain ⟨⟨⟩, passed, done⟩ := Outcome.bind_eq_ok.mp taken
  have isOpen := checkMutable_eq_ok passed
  exact ⟨isOpen, (kept done).trans isOpen⟩

/-- A setting is taken by an open compiler only, and it does not freeze. -/
theorem frozen_configure (taken : compiler.configure setting = .ok changed)
    (keeps : setting.isFreeze = false) : compiler.frozen = false ∧ changed.frozen = false := by
  cases setting with
  | file path =>
      apply frozen_guarded taken
      rintro ⟨⟩
      rfl
  | directory path extension =>
      apply frozen_guarded taken
      intro done
      split at done
      · cases done
        rfl
      · cases done
  | scope name options =>
      obtain ⟨⟨⟩, -, rest⟩ := Outcome.bind_eq_ok.mp taken
      obtain ⟨⟨⟩, -, rest⟩ := Outcome.bind_eq_ok.mp rest
      apply frozen_guarded rest
      rintro ⟨⟩
      rfl
  | presets names =>
      obtain ⟨⟨⟩, -, rest⟩ := Outcome.bind_eq_ok.mp taken
      apply frozen_guarded rest
      intro done
      split at done
      · cases done
        rfl
      · cases done
  | plugins names =>
      obtain ⟨⟨⟩, -, rest⟩ := Outcome.bind_eq_ok.mp taken
      apply frozen_guarded rest
      intro done
      split at done
      · cases done
        rfl
      · cases done
  | bare enabled =>
      obtain ⟨⟨⟩, -, rest⟩ := Outcome.bind_eq_ok.mp taken
      apply frozen_guarded rest
      intro done
      split at done
      · cases done
        rfl
      · cases done
  | prefixing enabled options =>
      obtain ⟨⟨⟩, -, rest⟩ := Outcome.bind_eq_ok.mp taken
      apply frozen_guarded rest
      rintro ⟨⟩
      rfl
  | freeze => cases keeps

/-- What a frozen compiler takes changes nothing. -/
theorem configure_frozen_ok (frozen : compiler.frozen = true)
    (taken : compiler.configure setting = .ok changed) : changed = compiler := by
  cases freezes : setting.isFreeze with
  | false =>
      rw [(frozen_configure taken freezes).1] at frozen
      cases frozen
  | true =>
      cases setting with
      | freeze =>
          cases taken
          rw [freeze, ← frozen]
      | _ => cases freezes

end Compiler

end AssetBundler
