import TwoBallGame.Display.Frames

/-! The vertical sync pulse beside the lines that are drawn. `vsync_proc` adds one
to a counter that moves once in 800 pixel clocks, so the pulse comes early. -/
namespace TwoBallGame.VgaController

/-- The pulse is where the comment on `vsync_proc` puts it, at lines 490 and 491. -/
def VsFits (n : Nat) : Prop :=
  (pixelClocks n).vs = false ↔ (pixelClocks n).drawY = 490 ∨ (pixelClocks n).drawY = 491

theorem drawY_eq_iff (n : Nat) (line : Fin 1024) :
    (pixelClocks n).drawY = BitVec.ofFin line ↔ n / 800 % 525 = line.val := by
  rw [← BitVec.toNat_inj, (draw_pixelClocks n).2]
  rfl

/-- The two lines of the pulse, by the number of pixel clocks. -/
theorem drawY_sync_iff (n : Nat) :
    (pixelClocks n).drawY = 490 ∨ (pixelClocks n).drawY = 491 ↔
      n / 800 % 525 = 490 ∨ n / 800 % 525 = 491 :=
  or_congr (drawY_eq_iff n 490) (drawY_eq_iff n 491)

/-- The pulse has the right length but is 799 pixel clocks early. -/
theorem vs_pixelClocks_early {n : Nat} (h : 1 ≤ n) :
    (pixelClocks n).vs = false ↔
      (pixelClocks (n + 799)).drawY = 490 ∨ (pixelClocks (n + 799)).drawY = 491 := by
  rw [vs_pixelClocks h, drawY_sync_iff]
  omega

/-- The pulse fits the drawn lines at every pixel clock but those from column 1
on in line 489, where it has begun, and in line 491, where it is over. -/
theorem vsFits_iff (n : Nat) (h : 1 ≤ n) :
    VsFits n ↔ ¬((n / 800 % 525 = 489 ∨ n / 800 % 525 = 491) ∧ 1 ≤ n % 800) := by
  rw [VsFits, vs_pixelClocks h, drawY_sync_iff]
  omega

/-- The first pixel of line 491 in the first frame. -/
theorem vsFits_first_of_last_line :
    VsFits 392800 ↔
      ¬((392800 / 800 % 525 = 489 ∨ 392800 / 800 % 525 = 491) ∧ 1 ≤ 392800 % 800) :=
  vsFits_iff 392800 (by decide)

/-- The second pixel of line 489: `vs` is low already. -/
theorem not_vsFits : ¬∀ n, 1 ≤ n → VsFits n := by
  intro hAll
  have hLow : (pixelClocks 391201).vs = false := (vs_pixelClocks (by decide)).mpr (by decide)
  have hLine := (drawY_sync_iff 391201).mp ((hAll 391201 (by decide)).mp hLow)
  revert hLine
  decide

end TwoBallGame.VgaController
