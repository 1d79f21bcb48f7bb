import ApiManual.Page
import Mathlib.Data.List.Basic

/-!
# What a page says about private entities

A page is laid out from the public part of its module.  Every section that can hold
private items drops them before it decides whether it has a heading, so a module and
its public part have the same page.
-/

namespace ApiManual

/-- A class without its private methods and, unless it is an enumeration, without its
private fields. -/
def ClassDoc.publicPart (c : ClassDoc) : ClassDoc :=
  { c with
    fields := if c.isEnum then c.fields else c.fields.filter (!·.isPrivate)
    methods := c.methods.filter (!·.isPrivate) }

def ModuleDoc.publicPart (m : ModuleDoc) : ModuleDoc :=
  { m with
    functions := m.functions.filter (!·.isPrivate)
    classes := m.classes.map ClassDoc.publicPart }

namespace Page

open ApiManual.Symbol

theorem functionSections_filter (index : Index) (scope : Text) (level : Nat)
    (functions : List FunctionDoc) :
    functionSections index scope level (functions.filter (!·.isPrivate)) =
      functionSections index scope level functions := by
  simp only [functionSections, List.filter_filter, Bool.and_self]

theorem fieldSection_filter (index : Index) (level : Nat) (fields : List FieldDoc) :
    fieldSection index level (fields.filter (!·.isPrivate)) =
      fieldSection index level fields := by
  simp only [fieldSection, List.filter_filter, Bool.and_self]

theorem fieldSection_publicPart (index : Index) (level : Nat) (c : ClassDoc) :
    fieldSection index level c.publicPart.fields = fieldSection index level c.fields := by
  cases henum : c.isEnum with
  | true => simp [ClassDoc.publicPart, henum]
  | false => simp [ClassDoc.publicPart, henum, fieldSection_filter]

theorem classSection_publicPart (index : Index) (level : Nat) (heading summary details : Text)
    (c : ClassDoc) :
    classSection index level heading summary details c.publicPart =
      classSection index level heading summary details c := by
  have hmethods := functionSections_filter index (c.name ++ [':']) (level + 1) c.methods
  rw [classSection, classSection, fieldSection_publicPart]
  exact congrArg _ hmethods

theorem enumSection_publicPart (index : Index) (level : Nat) {c : ClassDoc} (h : c.isEnum) :
    enumSection index level c.publicPart = enumSection index level c := by
  have hfields : c.publicPart.fields = c.fields := if_pos h
  rw [enumSection, enumSection, hfields]
  rfl

theorem enumSections_publicPart (index : Index) (classes : List ClassDoc) :
    enumSections index (classes.map ClassDoc.publicPart) = enumSections index classes := by
  have henums : (classes.map ClassDoc.publicPart).filter (·.isEnum) =
      (classes.filter (·.isEnum)).map ClassDoc.publicPart := List.filter_map
  have hsections : ((classes.filter (·.isEnum)).map ClassDoc.publicPart).flatMap
      (enumSection index 3) = (classes.filter (·.isEnum)).flatMap (enumSection index 3) := by
    rw [List.flatMap_map]
    apply List.flatMap_congr
    intro c hc
    exact enumSection_publicPart index 3 (List.mem_filter.mp hc).2
  simp only [enumSections, henums, hsections, List.isEmpty_map]

theorem classSections_publicPart (index : Index) (classes : List ClassDoc) :
    classSections index (classes.map ClassDoc.publicPart) = classSections index classes := by
  have hplain : (classes.map ClassDoc.publicPart).filter (!·.isEnum) =
      (classes.filter (!·.isEnum)).map ClassDoc.publicPart := List.filter_map
  simp only [classSections, hplain, List.isEmpty_map, List.flatMap_map, classSection_publicPart]
  rfl

theorem plainModulePage_publicPart (index : Index) (m : ModuleDoc) :
    plainModulePage index m.publicPart = plainModulePage index m := by
  have hfunctions := functionSections_filter index [] 2 m.functions
  have henums := enumSections_publicPart index m.classes
  have hclasses := classSections_publicPart index m.classes
  simp only [plainModulePage, ModuleDoc.publicPart, hfunctions, henums, hclasses]

theorem ofModule_publicPart (index : Index) (m : ModuleDoc) :
    ofModule index m.publicPart = ofModule index m := by
  have hprimary : m.publicPart.primaryClass? = m.primaryClass?.map ClassDoc.publicPart := by
    simp only [ModuleDoc.primaryClass?, ModuleDoc.publicPart, List.head?_map]
    split <;> rfl
  rw [ofModule, ofModule, hprimary]
  cases m.primaryClass? with
  | none => exact plainModulePage_publicPart index m
  | some c => exact classSection_publicPart index 1 m.name _ _ c

/-- The page of a module is that of its public part.  Two modules with the same public
part cannot be told apart by their pages. -/
theorem text_publicPart (index : Index) (m : ModuleDoc) :
    text index m = text index m.publicPart ∧
      ∀ other : ModuleDoc, other.publicPart = m.publicPart → text index other = text index m := by
  have htext : ∀ m : ModuleDoc, text index m = text index m.publicPart :=
    fun m => congrArg Markdown.Document.render (ofModule_publicPart index m).symm
  refine ⟨htext m, ?_⟩
  intro other hother
  rw [htext other, hother, ← htext m]

end Page
end ApiManual
