/-!
# About the program

Its version, as it is shown to users.
-/

namespace GovernanceCache.About

/-- The version of the program. -/
def version : String := "0.1.0"

/-- The oldest toolchain that builds the program. -/
def minimumToolchain : String := "1.75"

/-- The version as a line of text. -/
def versionLine : String := "meshgov " ++ version ++ " (MSRV " ++ minimumToolchain ++ ")"

end GovernanceCache.About
