import GamePack.Png.Image
import GamePack.Proofs.Compilation.Outputs
import GamePack.Proofs.Compilation.Twins

/-!
Outputs compiled one after the other. What a compiler keeps from one
output to the next are sheets that outputs named and that could be
loaded, under the path they were named by. It therefore compiles like a
new one as long as no path of the output is another spelling of a path
that loads while it does not.
-/
namespace GamePack

open Conversion

namespace Compiler

variable {asked : Path → Prop} {load : Path → Except Error Bitmap}
  {c : Compiler} {baseDir : Path} {output : OutputSpec}

-- =========================================================== histories

/-- What a compiler is asked for. -/
inductive Call where
  | compile (baseDir : Path) (output : OutputSpec)
  | takeDiagnostics

/-- The sheets that a call names. -/
def Call.sheets (schema : Schema) : Call → List Path
  | .compile baseDir output => output.sheets schema baseDir
  | .takeDiagnostics => []

/-- The compiler that a call leaves, whether it succeeds or fails. -/
def afterCall (load : Path → Except Error Bitmap) (c : Compiler) :
    Call → Compiler
  | .compile baseDir output => (c.compileOutput load baseDir output).2
  | .takeDiagnostics => c.takeDiagnostics.2

/-- The compiler that a row of calls leaves. -/
def after (load : Path → Except Error Bitmap) (c : Compiler)
    (calls : List Call) : Compiler :=
  calls.foldl (afterCall load) c

/-- A compiler without a history. -/
def fresh (schema : Schema) (options : BuildOptions) : Compiler :=
  { schema, options }

/-- A compiler for a schema and options whose sheets were asked for and
can be loaded. -/
structure Carries (schema : Schema) (options : BuildOptions)
    (asked : Path → Prop) (load : Path → Except Error Bitmap)
    (c : Compiler) : Prop where
  schema : c.schema = schema
  options : c.options = options
  sheets : ∀ entry ∈ c.sheets.sheets,
    asked entry.1 ∧ load entry.1 = .ok entry.2

variable {schema : Schema} {options : BuildOptions}

/-- A fresh compiler carries no sheets, so all that it carries was asked
for. -/
theorem carries_fresh (schema : Schema) (options : BuildOptions)
    (asked : Path → Prop) (load : Path → Except Error Bitmap) :
    Carries schema options asked load (fresh schema options) :=
  ⟨rfl, rfl, fun _ hentry => absurd hentry List.not_mem_nil⟩

/-- A call adds the sheets that it asks for to those that are carried. -/
theorem Carries.afterCall {call : Call}
    (h : Carries schema options asked load c)
    (hcall : ∀ p ∈ call.sheets schema, asked p) :
    Carries schema options asked load (c.afterCall load call) := by
  obtain ⟨rfl, rfl, hkept⟩ := h
  cases call with
  | takeDiagnostics => exact ⟨rfl, rfl, hkept⟩
  | compile baseDir output =>
      -- the compiler is compared with itself
      have halike : Alike (Twins.Kept asked load) c c :=
        ⟨rfl, rfl, rfl, rfl, hkept⟩
      obtain ⟨-, -, -, -, -, hsheets⟩ := halike.compileOutput
        (Twins.of_kept asked load) hcall (.inl trivial)
      exact ⟨schema_compileOutput _ _ _ _, options_compileOutput _ _ _ _,
        hsheets⟩

/-- So does a history of calls, by induction on it. -/
theorem Carries.after {calls : List Call}
    (h : Carries schema options asked load c)
    (hcalls : ∀ call ∈ calls, ∀ p ∈ call.sheets schema, asked p) :
    Carries schema options asked load (c.after load calls) := by
  induction calls generalizing c with
  | nil => exact h
  | cons call calls ih =>
      obtain ⟨hcall, hcalls⟩ := List.forall_mem_cons.1 hcalls
      exact ih (h.afterCall hcall) hcalls

/-- An output is compiled with the same result after any earlier calls as
by a new compiler, target, blocks, sprites and failures alike, as long as
each sheet that it names can be loaded under its own path whenever it
can be under another spelling that an earlier call used. -/
theorem compileOutput_independent {calls : List Call}
    (h : ∀ p ∈ output.sheets schema baseDir,
      ∀ call ∈ calls, ∀ q ∈ call.sheets schema, q.same p = true →
        ∀ b, load q = .ok b → load p = .ok b) :
    (((fresh schema options).after load calls).compileOutput load baseDir
        output).1 =
      ((fresh schema options).compileOutput load baseDir output).1 := by
  obtain ⟨hschema, hoptions, hkept⟩ :=
    (carries_fresh schema options
      (fun q => ∃ call ∈ calls, q ∈ call.sheets schema) load).after
      fun call hcall q hq => ⟨call, hcall, hq⟩
  have hagree : Twins.Agree True (· ∈ output.sheets schema baseDir) load
      load ((fresh schema options).after load calls).sheets
      (fresh schema options).sheets := by
    intro p hp _
    cases hfound : ((fresh schema options).after load calls).sheets.find? p
        with
    | none => exact SheetCache.look_of_find?_none hfound
    | some b =>
        obtain ⟨q, hmem, hsame⟩ := SheetCache.exists_of_find? hfound
        obtain ⟨⟨call, hcall, hq⟩, hload⟩ := hkept _ hmem
        rw [SheetCache.look_of_find? hfound]
        exact (h p hp call hcall q hq hsame b hload).symm
  have halike : Alike (Twins.Agree True _ load load)
      ((fresh schema options).after load calls) (fresh schema options) :=
    ⟨hschema, by rw [hoptions]; rfl, by rw [hoptions]; rfl, hagree⟩
  refine halike.compileOutput_eq hoptions (Twins.of_agree _ _ load load)
    (fun p hp => ?_) (.inl trivial)
  rwa [hschema] at hp

-- ====================================================== a small history

/-- A picture of one pixel. -/
def pixel : Bitmap :=
  (Bitmap.filled 1 1 1).withPalette [⟨0, 0, 0⟩, ⟨255, 255, 255⟩]

/-- A disk with this picture in its root directory, where one works. -/
def pixelDisk : Disk where
  workDir := []
  entries := [(["pixel.png"],
    .file ((Bitmap.encodePng pixel).toOption.getD []))]

/-- An output of one block, whose icon is a whole sheet. -/
def pixelOutput (sheet : String) : OutputSpec where
  target := ⟨"icons.rcd"⟩
  blocks := [iconSpec (.mapping [(.string "sheet", .string sheet)])]

/-- Another output was compiled, one failed, and what was said of them
was taken; then the picture is named by another spelling of its path. -/
theorem compileOutput_independent_pixel :
    (((fresh iconCompiler.schema {}).after (Bitmap.load pixelDisk)
        [.compile ⟨"."⟩ (pixelOutput "pixel.png"),
          .compile ⟨"."⟩ (pixelOutput "missing.png"),
          .takeDiagnostics]).compileOutput (Bitmap.load pixelDisk) ⟨"."⟩
        (pixelOutput "./pixel.png")).1 =
      ((fresh iconCompiler.schema {}).compileOutput
        (Bitmap.load pixelDisk) ⟨"."⟩ (pixelOutput "./pixel.png")).1 := by
  have hloads : (Bitmap.load pixelDisk ⟨"./pixel.png"⟩).toOption =
      (Bitmap.load pixelDisk ⟨"././pixel.png"⟩).toOption := by
    decide +kernel
  have hmissing : (⟨"./missing.png"⟩ : Path).same ⟨"././pixel.png"⟩ =
      false := by decide
  apply compileOutput_independent
  intro p hp call hcall q hq hsame b hb
  obtain rfl : p = ⟨"././pixel.png"⟩ := List.mem_singleton.1 hp
  simp only [List.mem_cons, List.not_mem_nil, or_false] at hcall
  rcases hcall with rfl | rfl | rfl
  · obtain rfl : q = ⟨"./pixel.png"⟩ := List.mem_singleton.1 hq
    rw [hb] at hloads
    cases hload : Bitmap.load pixelDisk ⟨"././pixel.png"⟩ with
    | error e =>
        rw [hload] at hloads
        cases hloads
    | ok b' =>
        rw [hload] at hloads
        cases hloads
        rfl
  · obtain rfl : q = ⟨"./missing.png"⟩ := List.mem_singleton.1 hq
    rw [hmissing] at hsame
    cases hsame
  · exact absurd hq List.not_mem_nil

/-- A picture that was loaded stands in for a path that leads nowhere by
itself: a slash behind the name of a file. -/
theorem compileOutput_dependent :
    (((fresh iconCompiler.schema {}).after (Bitmap.load pixelDisk)
        [.compile ⟨"."⟩ (pixelOutput "pixel.png")]).compileOutput
        (Bitmap.load pixelDisk) ⟨"."⟩ (pixelOutput "pixel.png/")).1.isOk =
      true ∧
    ((fresh iconCompiler.schema {}).compileOutput (Bitmap.load pixelDisk)
        ⟨"."⟩ (pixelOutput "pixel.png/")).1 =
      .error (.field "ICON" "icon" (.file ⟨"./pixel.png/"⟩
        (.system .openBitmap .notDirectory))) :=
  ⟨by decide +kernel, by rfl⟩

end Compiler

end GamePack
