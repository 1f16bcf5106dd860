import Std.Data.HashMap
import TagScript.Text.Ranges

/-!
The named character references. Names that also count without their semicolon are marked with a
point here.
-/

namespace TagScript.Markup

/-- How far each code point is from the one before, if not by one, with the names that stand for it,
a comma after each. A second code point is written behind a plus. -/
def namedReferenceLines : List String :=
  ["9 Tab,NewLine,23 excl,QUOT. quot.,num,dollar,percnt,AMP. amp.,apos,lpar,rpar,ast midast,plus,comma,2 period,sol,",
   "11 colon,semi,LT. lt.,0+8402 nvlt,equals,0+8421 bne,GT. gt.,0+8402 nvgt,quest,commat,27 lbrack lsqb,bsol,",
   "rbrack rsqb,Hat,UnderBar lowbar,DiacriticalGrave grave,6+106 fjlig,21 lbrace lcub,VerticalLine verbar vert,",
   "rbrace rcub,35 NonBreakingSpace nbsp.,iexcl.,cent.,pound.,curren.,yen.,brvbar.,sect.,Dot DoubleDot die uml.,",
   "COPY. copy.,ordf.,laquo.,not.,shy.,REG. circledR reg.,macr. strns,deg.,PlusMinus plusmn. pm,sup2.,sup3.,",
   "DiacriticalAcute acute.,micro.,para.,CenterDot centerdot middot.,Cedilla cedil.,sup1.,ordm.,raquo.,frac14.,",
   "frac12. half,frac34.,iquest.,Agrave.,Aacute.,Acirc.,Atilde.,Auml.,Aring. angst,AElig.,Ccedil.,Egrave.,Eacute.,",
   "Ecirc.,Euml.,Igrave.,Iacute.,Icirc.,Iuml.,ETH.,Ntilde.,Ograve.,Oacute.,Ocirc.,Otilde.,Ouml.,times.,Oslash.,",
   "Ugrave.,Uacute.,Ucirc.,Uuml.,Yacute.,THORN.,szlig.,agrave.,aacute.,acirc.,atilde.,auml.,aring.,aelig.,ccedil.,",
   "egrave.,eacute.,ecirc.,euml.,igrave.,iacute.,icirc.,iuml.,eth.,ntilde.,ograve.,oacute.,ocirc.,otilde.,ouml.,",
   "div divide.,oslash.,ugrave.,uacute.,ucirc.,uuml.,yacute.,thorn.,yuml.,Amacr,amacr,Abreve,abreve,Aogon,aogon,",
   "Cacute,cacute,Ccirc,ccirc,Cdot,cdot,Ccaron,ccaron,Dcaron,dcaron,Dstrok,dstrok,Emacr,emacr,3 Edot,edot,Eogon,",
   "eogon,Ecaron,ecaron,Gcirc,gcirc,Gbreve,gbreve,Gdot,gdot,Gcedil,2 Hcirc,hcirc,Hstrok,hstrok,Itilde,itilde,Imacr,",
   "imacr,3 Iogon,iogon,Idot,imath inodot,IJlig,ijlig,Jcirc,jcirc,Kcedil,kcedil,kgreen,Lacute,lacute,Lcedil,lcedil,",
   "Lcaron,lcaron,Lmidot,lmidot,Lstrok,lstrok,Nacute,nacute,Ncedil,ncedil,Ncaron,ncaron,napos,ENG,eng,Omacr,omacr,",
   "3 Odblac,odblac,OElig,oelig,Racute,racute,Rcedil,rcedil,Rcaron,rcaron,Sacute,sacute,Scirc,scirc,Scedil,scedil,",
   "Scaron,scaron,Tcedil,tcedil,Tcaron,tcaron,Tstrok,tstrok,Utilde,utilde,Umacr,umacr,Ubreve,ubreve,Uring,uring,",
   "Udblac,udblac,Uogon,uogon,Wcirc,wcirc,Ycirc,ycirc,Yuml,Zacute,zacute,Zdot,zdot,Zcaron,zcaron,20 fnof,35 imped,",
   "64 gacute,66 jmath,143 circ,Hacek caron,17 Breve breve,DiacriticalDot dot,ring,ogon,DiacriticalTilde tilde,",
   "DiacriticalDoubleAcute dblac,52 DownBreve,128 Alpha,Beta,Gamma,Delta,Epsilon,Zeta,Eta,Theta,Iota,Kappa,Lambda,",
   "Mu,Nu,Xi,Omicron,Pi,Rho,2 Sigma,Tau,Upsilon,Phi,Chi,Psi,Omega ohm,8 alpha,beta,gamma,delta,epsi epsilon,zeta,",
   "eta,theta,iota,kappa,lambda,mu,nu,xi,omicron,pi,rho,sigmaf sigmav varsigma,sigma,tau,upsi upsilon,phi,chi,psi,",
   "omega,8 thetasym thetav vartheta,Upsi upsih,3 phiv straightphi varphi,piv varpi,6 Gammad,digamma gammad,",
   "19 kappav varkappa,rhov varrho,4 epsiv straightepsilon varepsilon,backepsilon bepsi,11 IOcy,DJcy,GJcy,Jukcy,",
   "DScy,Iukcy,YIcy,Jsercy,LJcy,NJcy,TSHcy,KJcy,2 Ubrcy,DZcy,Acy,Bcy,Vcy,Gcy,Dcy,IEcy,ZHcy,Zcy,Icy,Jcy,Kcy,Lcy,Mcy,",
   "Ncy,Ocy,Pcy,Rcy,Scy,Tcy,Ucy,Fcy,KHcy,TScy,CHcy,SHcy,SHCHcy,HARDcy,Ycy,SOFTcy,Ecy,YUcy,YAcy,acy,bcy,vcy,gcy,dcy,",
   "iecy,zhcy,zcy,icy,jcy,kcy,lcy,mcy,ncy,ocy,pcy,rcy,scy,tcy,ucy,fcy,khcy,tscy,chcy,shcy,shchcy,hardcy,ycy,softcy,",
   "ecy,yucy,yacy,2 iocy,djcy,gjcy,jukcy,dscy,iukcy,yicy,jsercy,ljcy,njcy,tshcy,kjcy,2 ubrcy,dzcy,7075 ensp,emsp,",
   "emsp13,emsp14,2 numsp,puncsp,ThinSpace thinsp,VeryThinSpace hairsp,",
   "NegativeMediumSpace NegativeThickSpace NegativeThinSpace NegativeVeryThinSpace ZeroWidthSpace,zwnj,zwj,lrm,rlm,",
   "dash hyphen,3 ndash,mdash,horbar,Verbar Vert,2 OpenCurlyQuote lsquo,CloseCurlyQuote rsquo rsquor,lsquor sbquo,",
   "2 OpenCurlyDoubleQuote ldquo,CloseCurlyDoubleQuote rdquo rdquor,bdquo ldquor,2 dagger,Dagger ddagger,",
   "bull bullet,3 nldr,hellip mldr,10 permil,pertenk,prime,Prime,tprime,backprime bprime,4 lsaquo,rsaquo,",
   "4 OverBar oline,3 caret,2 hybull,frasl,11 bsemi,8 qprime,8 MediumSpace,0+8202 ThickSpace,NoBreak,",
   "ApplyFunction af,InvisibleTimes it,InvisibleComma ic,73 euro,47 TripleDot tdot,DotDot,38 Copf complexes,",
   "3 incare,5 gscr,HilbertSpace Hscr hamilt,Hfr Poincareplane,Hopf quaternions,planckh,hbar hslash planck plankv,",
   "Iscr imagline,Ifr Im image imagpart,Laplacetrf Lscr lagran,ell,2 Nopf naturals,numero,copysr,weierp wp,",
   "Popf primes,Qopf rationals,Rscr realine,Re Rfr real realpart,Ropf reals,rx,4 TRADE trade,2 Zopf integers,3 mho,",
   "Zfr zeetrf,iiota,3 Bernoullis Bscr bernou,Cayleys Cfr,2 escr,Escr expectation,Fouriertrf Fscr,",
   "2 Mellintrf Mscr phmmat,order orderof oscr,alefsym aleph,beth,gimel,daleth,13 CapitalDifferentialD DD,",
   "DifferentialD dd,ExponentialE ee exponentiale,ImaginaryI ii,11 frac13,frac23,frac15,frac25,frac35,frac45,frac16,",
   "frac56,frac18,frac38,frac58,frac78,50 LeftArrow ShortLeftArrow larr leftarrow slarr,",
   "ShortUpArrow UpArrow uarr uparrow,RightArrow ShortRightArrow rarr rightarrow srarr,",
   "DownArrow ShortDownArrow darr downarrow,LeftRightArrow harr leftrightarrow,UpDownArrow updownarrow varr,",
   "UpperLeftArrow nwarr nwarrow,UpperRightArrow nearr nearrow,LowerRightArrow searr searrow,",
   "LowerLeftArrow swarr swarrow,nlarr nleftarrow,nrarr nrightarrow,2 rarrw rightsquigarrow,0+824 nrarrw,",
   "Larr twoheadleftarrow,Uarr,Rarr twoheadrightarrow,Darr,larrtl leftarrowtail,rarrtl rightarrowtail,",
   "LeftTeeArrow mapstoleft,UpTeeArrow mapstoup,RightTeeArrow map mapsto,DownTeeArrow mapstodown,",
   "2 hookleftarrow larrhk,hookrightarrow rarrhk,larrlp looparrowleft,looparrowright rarrlp,",
   "harrw leftrightsquigarrow,nharr nleftrightarrow,2 Lsh lsh,Rsh rsh,ldsh,rdsh,2 crarr,cularr curvearrowleft,",
   "curarr curvearrowright,3 circlearrowleft olarr,circlearrowright orarr,LeftVector leftharpoonup lharu,",
   "DownLeftVector leftharpoondown lhard,RightUpVector uharr upharpoonright,LeftUpVector uharl upharpoonleft,",
   "RightVector rharu rightharpoonup,DownRightVector rhard rightharpoondown,RightDownVector dharr downharpoonright,",
   "LeftDownVector dharl downharpoonleft,RightArrowLeftArrow rightleftarrows rlarr,UpArrowDownArrow udarr,",
   "LeftArrowRightArrow leftrightarrows lrarr,leftleftarrows llarr,upuparrows uuarr,rightrightarrows rrarr,",
   "ddarr downdownarrows,ReverseEquilibrium leftrightharpoons lrhar,Equilibrium rightleftharpoons rlhar,",
   "nLeftarrow nlArr,nLeftrightarrow nhArr,nRightarrow nrArr,DoubleLeftArrow Leftarrow lArr,",
   "DoubleUpArrow Uparrow uArr,DoubleRightArrow Implies Rightarrow rArr,DoubleDownArrow Downarrow dArr,",
   "DoubleLeftRightArrow Leftrightarrow hArr iff,DoubleUpDownArrow Updownarrow vArr,nwArr,neArr,seArr,swArr,",
   "Lleftarrow lAarr,Rrightarrow rAarr,2 zigrarr,7 LeftArrowBar larrb,RightArrowBar rarrb,16 DownArrowUpArrow duarr,",
   "8 loarr,roarr,hoarr,ForAll forall,comp complement,PartialD part,0+824 npart,Exists exist,",
   "NotExists nexist nexists,empty emptyset emptyv varnothing,2 Del nabla,Element in isin isinv,",
   "NotElement notin notinva,2 ReverseElement SuchThat ni niv,NotReverseElement notni notniva,3 Product prod,",
   "Coproduct coprod,Sum sum,minus,MinusPlus mnplus mp,dotplus plusdo,",
   "2 Backslash setminus setmn smallsetminus ssetmn,lowast,SmallCircle compfn,2 Sqrt radic,",
   "3 Proportional prop propto varpropto vprop,infin,angrt,ang angle,0+8402 nang,angmsd measuredangle,angsph,",
   "VerticalBar mid shortmid smid,NotVerticalBar nmid nshortmid nsmid,",
   "DoubleVerticalBar par parallel shortparallel spar,NotDoubleVerticalBar npar nparallel nshortparallel nspar,",
   "and wedge,or vee,cap,0+65024 caps,cup,0+65024 cups,Integral int,Int,iiint tint,ContourIntegral conint oint,",
   "Conint DoubleContourIntegral,Cconint,cwint,ClockwiseContourIntegral cwconint,",
   "CounterClockwiseContourIntegral awconint,Therefore there4 therefore,Because becaus because,ratio,",
   "Colon Proportion,dotminus minusd,2 mDDot,homtht,Tilde sim thicksim thksim,0+8402 nvsim,backsim bsim,0+817 race,",
   "ac mstpos,0+819 acE,acd,VerticalTilde wr wreath,NotTilde nsim,EqualTilde eqsim esim,0+824 NotEqualTilde nesim,",
   "TildeEqual sime simeq,NotTildeEqual nsime nsimeq,TildeFullEqual cong,simne,NotTildeFullEqual ncong,",
   "TildeTilde ap approx asymp thickapprox thkap,NotTildeTilde nap napprox,ape approxeq,apid,0+824 napid,",
   "backcong bcong,CupCap asympeq,0+8402 nvap,Bumpeq HumpDownHump bump,0+824 NotHumpDownHump nbump,",
   "HumpEqual bumpe bumpeq,0+824 NotHumpEqual nbumpe,DotEqual doteq esdot,0+824 nedot,doteqdot eDot,",
   "efDot fallingdotseq,erDot risingdotseq,Assign colone coloneq,ecolon eqcolon,ecir eqcirc,circeq cire,2 wedgeq,",
   "veeeq,2 triangleq trie,3 equest questeq,NotEqual ne,Congruent equiv,0+8421 bnequiv,NotCongruent nequiv,2 le leq,",
   "0+8402 nvle,GreaterEqual ge geq,0+8402 nvge,LessFullEqual lE leqq,0+824 nlE nleqq,GreaterFullEqual gE geqq,",
   "0+824 NotGreaterFullEqual ngE ngeqq,lnE lneqq,0+65024 lvertneqq lvnE,gnE gneqq,0+65024 gvertneqq gvnE,",
   "Lt NestedLessLess ll,0+824 NotLessLess nLtv,0+8402 nLt,Gt NestedGreaterGreater gg,0+824 NotGreaterGreater nGtv,",
   "0+8402 nGt,between twixt,NotCupCap,NotLess nless nlt,NotGreater ngt ngtr,NotLessEqual nle nleq,",
   "NotGreaterEqual nge ngeq,LessTilde lesssim lsim,GreaterTilde gsim gtrsim,NotLessTilde nlsim,",
   "NotGreaterTilde ngsim,LessGreater lessgtr lg,GreaterLess gl gtrless,NotLessGreater ntlg,NotGreaterLess ntgl,",
   "Precedes pr prec,Succeeds sc succ,PrecedesSlantEqual prcue preccurlyeq,SucceedsSlantEqual sccue succcurlyeq,",
   "PrecedesTilde precsim prsim,SucceedsTilde scsim succsim,0+824 NotSucceedsTilde,NotPrecedes npr nprec,",
   "NotSucceeds nsc nsucc,sub subset,0+8402 NotSubset nsubset vnsub,Superset sup supset,",
   "0+8402 NotSuperset nsupset vnsup,nsub,nsup,SubsetEqual sube subseteq,SupersetEqual supe supseteq,",
   "NotSubsetEqual nsube nsubseteq,NotSupersetEqual nsupe nsupseteq,subne subsetneq,0+65024 varsubsetneq vsubne,",
   "supne supsetneq,0+65024 varsupsetneq vsupne,2 cupdot,UnionPlus uplus,SquareSubset sqsub sqsubset,",
   "0+824 NotSquareSubset,SquareSuperset sqsup sqsupset,0+824 NotSquareSuperset,SquareSubsetEqual sqsube sqsubseteq,",
   "SquareSupersetEqual sqsupe sqsupseteq,SquareIntersection sqcap,0+65024 sqcaps,SquareUnion sqcup,0+65024 sqcups,",
   "CirclePlus oplus,CircleMinus ominus,CircleTimes otimes,osol,CircleDot odot,circledcirc ocir,circledast oast,",
   "2 circleddash odash,boxplus plusb,boxminus minusb,boxtimes timesb,dotsquare sdotb,RightTee vdash,LeftTee dashv,",
   "DownTee top,UpTee bot bottom perp,2 models,DoubleRightTee vDash,Vdash,Vvdash,VDash,nvdash,nvDash,nVdash,nVDash,",
   "prurel,2 LeftTriangle vartriangleleft vltri,RightTriangle vartriangleright vrtri,",
   "LeftTriangleEqual ltrie trianglelefteq,0+8402 nvltrie,RightTriangleEqual rtrie trianglerighteq,0+8402 nvrtrie,",
   "origof,imof,multimap mumap,hercon,intcal intercal,veebar,2 barvee,angrtvb,lrtri,Wedge bigwedge xwedge,",
   "Vee bigvee xvee,Intersection bigcap xcap,Union bigcup xcup,Diamond diam diamond,sdot,Star sstarf,",
   "divideontimes divonx,bowtie,ltimes,rtimes,leftthreetimes lthree,rightthreetimes rthree,backsimeq bsime,",
   "curlyvee cuvee,curlywedge cuwed,Sub Subset,Sup Supset,Cap,Cup,fork pitchfork,epar,lessdot ltdot,gtdot gtrdot,Ll,",
   "0+824 nLl,Gg ggg,0+824 nGg,LessEqualGreater leg lesseqgtr,0+65024 lesg,GreaterEqualLess gel gtreqless,",
   "0+65024 gesl,3 cuepr curlyeqprec,cuesc curlyeqsucc,NotPrecedesSlantEqual nprcue,NotSucceedsSlantEqual nsccue,",
   "NotSquareSubsetEqual nsqsube,NotSquareSupersetEqual nsqsupe,3 lnsim,gnsim,precnsim prnsim,scnsim succnsim,",
   "NotLeftTriangle nltri ntriangleleft,NotRightTriangle nrtri ntriangleright,",
   "NotLeftTriangleEqual nltrie ntrianglelefteq,NotRightTriangleEqual nrtrie ntrianglerighteq,vellip,ctdot,utdot,",
   "dtdot,disin,isinsv,isins,isindot,0+824 notindot,notinvc,notinvb,2 isinE,0+824 notinE,nisd,xnis,nis,notnivc,",
   "notnivb,7 barwed barwedge,Barwed doublebarwedge,2 LeftCeiling lceil,RightCeiling rceil,LeftFloor lfloor,",
   "RightFloor rfloor,drcrop,dlcrop,urcrop,ulcrop,bnot,2 profline,profsurf,2 telrec,target,6 ulcorn ulcorner,",
   "urcorn urcorner,dlcorn llcorner,drcorn lrcorner,3 frown sfrown,smile ssmile,10 cylcty,profalar,8 topbot,7 ovbar,",
   "2 solbar,61 angzarr,52 lmoust lmoustache,rmoust rmoustache,3 OverBracket tbrk,UnderBracket bbrk,bbrktbrk,",
   "38 OverParenthesis,UnderParenthesis,OverBrace,UnderBrace,3 trpezium,5 elinters,60 blank,165 circledS oS,",
   "56 HorizontalLine boxh,2 boxv,10 boxdr,4 boxdl,4 boxur,4 boxul,4 boxvr,8 boxvl,8 boxhd,8 boxhu,8 boxvh,20 boxH,",
   "boxV,boxdR,boxDr,boxDR,boxdL,boxDl,boxDL,boxuR,boxUr,boxUR,boxuL,boxUl,boxUL,boxvR,boxVr,boxVR,boxvL,boxVl,",
   "boxVL,boxHd,boxhD,boxHD,boxHu,boxhU,boxHU,boxvH,boxVh,boxVH,20 uhblk,4 lhblk,4 block,9 blk14,blk12,blk34,",
   "14 Square squ square,9 FilledVerySmallSquare blacksquare squarf squf,EmptyVerySmallSquare,2 rect,marker,3 fltns,",
   "2 bigtriangleup xutri,blacktriangle utrif,triangle utri,3 blacktriangleright rtrif,rtri triangleright,",
   "4 bigtriangledown xdtri,blacktriangledown dtrif,dtri triangledown,3 blacktriangleleft ltrif,ltri triangleleft,",
   "7 loz lozenge,cir,33 tridot,3 bigcirc xcirc,9 ultri,urtri,lltri,EmptySmallSquare,FilledSmallSquare,",
   "9 bigstar starf,star,8 phone,50 female,2 male,30 spades spadesuit,3 clubs clubsuit,2 hearts heartsuit,",
   "diamondsuit diams,4 sung,3 flat,natur natural,sharp,164 check checkmark,4 cross,9 malt maltese,22 sext,",
   "34 VerticalSeparator,26 lbbrk,rbbrk,85 bsolhsub,suphsol,29 LeftDoubleBracket lobrk,RightDoubleBracket robrk,",
   "LeftAngleBracket lang langle,RightAngleBracket rang rangle,Lang,Rang,loang,roang,",
   "8 LongLeftArrow longleftarrow xlarr,LongRightArrow longrightarrow xrarr,",
   "LongLeftRightArrow longleftrightarrow xharr,DoubleLongLeftArrow Longleftarrow xlArr,",
   "DoubleLongRightArrow Longrightarrow xrArr,DoubleLongLeftRightArrow Longleftrightarrow xhArr,2 longmapsto xmap,",
   "3 dzigrarr,259 nvlArr,nvrArr,nvHarr,Map,7 lbarr,bkarow rbarr,lBarr,dbkarow rBarr,RBarr drbkarow,DDotrahd,",
   "UpArrowBar,DownArrowBar,3 Rarrtl,3 latail,ratail,lAtail,rAtail,larrfs,rarrfs,larrbfs,rarrbfs,3 nwarhk,nearhk,",
   "hksearow searhk,hkswarow swarhk,nwnear,nesear toea,seswar tosa,swnwar,9 rarrc,0+824 nrarrc,2 cudarrr,ldca,rdca,",
   "cudarrl,larrpl,3 curarrm,cularrp,8 rarrpl,3 harrcir,Uarrocir,lurdshar,ldrushar,3 LeftRightVector,",
   "RightUpDownVector,DownLeftRightVector,LeftUpDownVector,LeftVectorBar,RightVectorBar,RightUpVectorBar,",
   "RightDownVectorBar,DownLeftVectorBar,DownRightVectorBar,LeftUpVectorBar,LeftDownVectorBar,LeftTeeVector,",
   "RightTeeVector,RightUpTeeVector,RightDownTeeVector,DownLeftTeeVector,DownRightTeeVector,LeftUpTeeVector,",
   "LeftDownTeeVector,lHar,uHar,rHar,dHar,luruhar,ldrdhar,ruluhar,rdldhar,lharul,llhard,rharul,lrhard,",
   "UpEquilibrium udhar,ReverseUpEquilibrium duhar,RoundImplies,erarr,simrarr,larrsim,rarrsim,rarrap,ltlarr,",
   "2 gtrarr,subrarr,2 suplarr,lfisht,rfisht,ufisht,dfisht,6 lopar,ropar,5 lbrke,rbrke,lbrkslu,rbrksld,lbrksld,",
   "rbrkslu,langd,rangd,lparlt,rpargt,gtlPar,ltrPar,4 vzigzag,2 vangrt,angrtvbd,7 ange,range,dwangle,uwangle,",
   "angmsdaa,angmsdab,angmsdac,angmsdad,angmsdae,angmsdaf,angmsdag,angmsdah,bemptyv,demptyv,cemptyv,raemptyv,",
   "laemptyv,ohbar,omid,opar,2 operp,2 olcross,odsold,2 olcir,ofcir,olt,ogt,cirscir,cirE,solb,bsolb,4 boxbox,",
   "4 trisb,rtriltri,LeftTriangleBar,0+824 NotLeftTriangleBar,RightTriangleBar,0+824 NotRightTriangleBar,12 iinfin,",
   "infintie,nvinfin,5 eparsl,smeparsl,eqvparsl,6 blacklozenge lozf,9 RuleDelayed,2 dsol,10 bigodot xodot,",
   "bigoplus xoplus,bigotimes xotime,2 biguplus xuplus,2 bigsqcup xsqcup,6 iiiint qint,fpartint,3 cirfnint,awint,",
   "rppolint,scpolint,npolint,pointint,quatint,intlarhk,11 pluscir,plusacir,simplus,plusdu,plussim,plustwo,2 mcomma,",
   "minusdu,3 loplus,roplus,Cross,timesd,timesbar,2 smashp,lotimes,rotimes,otimesas,Otimes,odiv,triplus,triminus,",
   "tritime,intprod iprod,3 amalg,capdot,2 ncup,ncap,capand,cupor,cupcap,capcup,cupbrcap,capbrcup,cupcup,capcap,",
   "ccups,ccaps,3 ccupssm,3 And,Or,andand,oror,orslope,andslope,2 andv,orv,andd,ord,2 wedbar,7 sdote,4 simdot,",
   "3 congdot,0+824 ncongdot,easter,apacir,apE,0+824 napE,eplus,pluse,Esim,Colone,Equal,2 ddotseq eDDot,equivDD,",
   "ltcir,gtcir,ltquest,gtquest,LessSlantEqual leqslant les,0+824 NotLessSlantEqual nleqslant nles,",
   "GreaterSlantEqual geqslant ges,0+824 NotGreaterSlantEqual ngeqslant nges,lesdot,gesdot,lesdoto,gesdoto,lesdotor,",
   "gesdotol,lap lessapprox,gap gtrapprox,lne lneq,gne gneq,lnap lnapprox,gnap gnapprox,lEg lesseqqgtr,",
   "gEl gtreqqless,lsime,gsime,lsimg,gsiml,lgE,glE,lesges,gesles,els eqslantless,egs eqslantgtr,elsdot,egsdot,el,eg,",
   "3 siml,simg,simlE,simgE,LessLess,0+824 NotNestedLessLess,GreaterGreater,0+824 NotNestedGreaterGreater,2 glj,gla,",
   "ltcc,gtcc,lescc,gescc,smt,lat,smte,0+65024 smtes,late,0+65024 lates,bumpE,PrecedesEqual pre preceq,",
   "0+824 NotPrecedesEqual npre npreceq,SucceedsEqual sce succeq,0+824 NotSucceedsEqual nsce nsucceq,3 prE,scE,",
   "precneqq prnE,scnE succneqq,prap precapprox,scap succapprox,precnapprox prnap,scnap succnapprox,Pr,Sc,subdot,",
   "supdot,subplus,supplus,submult,supmult,subedot,supedot,subE subseteqq,0+824 nsubE nsubseteqq,supE supseteqq,",
   "0+824 nsupE nsupseteqq,subsim,supsim,3 subnE subsetneqq,0+65024 varsubsetneqq vsubnE,supnE supsetneqq,",
   "0+65024 varsupsetneqq vsupnE,3 csub,csup,csube,csupe,subsup,supsub,subsub,supsup,suphsub,supdsub,forkv,topfork,",
   "mlcp,9 Dashv DoubleLeftTee,2 Vdashl,Barv,vBar,vBarv,2 Vbar,Not,bNot,rnmid,cirmid,midcir,topcir,nhpar,parsim,",
   "10 parsl,0+8421 nparsl,53251 fflig,filig,fllig,ffilig,ffllig,55704 Ascr,2 Cscr,Dscr,3 Gscr,3 Jscr,Kscr,3 Nscr,",
   "Oscr,Pscr,Qscr,2 Sscr,Tscr,Uscr,Vscr,Wscr,Xscr,Yscr,Zscr,ascr,bscr,cscr,dscr,2 fscr,2 hscr,iscr,jscr,kscr,lscr,",
   "mscr,nscr,2 pscr,qscr,rscr,sscr,tscr,uscr,vscr,wscr,xscr,yscr,zscr,53 Afr,Bfr,2 Dfr,Efr,Ffr,Gfr,3 Jfr,Kfr,Lfr,",
   "Mfr,Nfr,Ofr,Pfr,Qfr,2 Sfr,Tfr,Ufr,Vfr,Wfr,Xfr,Yfr,2 afr,bfr,cfr,dfr,efr,ffr,gfr,hfr,ifr,jfr,kfr,lfr,mfr,nfr,ofr,",
   "pfr,qfr,rfr,sfr,tfr,ufr,vfr,wfr,xfr,yfr,zfr,Aopf,Bopf,2 Dopf,Eopf,Fopf,Gopf,2 Iopf,Jopf,Kopf,Lopf,Mopf,2 Oopf,",
   "4 Sopf,Topf,Uopf,Vopf,Wopf,Xopf,Yopf,2 aopf,bopf,copf,dopf,eopf,fopf,gopf,hopf,iopf,jopf,kopf,lopf,mopf,nopf,",
   "oopf,popf,qopf,ropf,sopf,topf,uopf,vopf,wopf,xopf,yopf,zopf,"]

def namesOfEntry (text : String) (name : List Char) : List (String × String) :=
  if name.getLast? == some '.' then
    [(String.ofList name.dropLast, text), (String.ofList (name.dropLast ++ [';']), text)]
  else [(String.ofList (name ++ [';']), text)]

/-- The names in the entries, with what they stand for, where `previous` is the code point before
them. -/
def referencesOfEntries (previous : Nat) : List (List Char) → List (String × String)
  | [] => []
  | entry :: rest =>
    match (if entry.head?.all (·.isDigit) then entry else '1' :: ' ' :: entry).splitOn ' ' with
    | [] => referencesOfEntries previous rest
    | codes :: names =>
      let codes := (codes.splitOn '+').map Text.decimalNumber
      let first := previous + codes.head?.getD 0
      names.flatMap (namesOfEntry (String.ofList ((first :: codes.tail).map Char.ofNat))) ++
        referencesOfEntries first rest

def namedReferences : Std.HashMap String String :=
  Std.HashMap.ofList
    (referencesOfEntries 0 (namedReferenceLines.flatMap fun line => line.toList.splitOn ','))

def essentialReference? (name : String) : Option String :=
  if name == "amp;" then some "&"
  else if name == "lt;" then some "<"
  else if name == "gt;" then some ">"
  else if name == "quot;" then some "\""
  else if name == "apos;" then some "'"
  else none

def namedReference? (name : String) : Option String :=
  match essentialReference? name with
  | some text => some text
  | none => namedReferences[name]?

end TagScript.Markup
